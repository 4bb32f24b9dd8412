import Mathlib.Data.List.TakeWhile

/-!
# Paio.Library.Words

The words of a list: its maximal runs of elements that are no separators. A text that is written as
words with one separator after the other reads back as these words.

`Runs` says what the words of a text are without computing them: gaps of separators and words in
turn, and a word ends at a separator or with the text.
-/

namespace Words

variable {α : Type} {sep : α → Bool}

/-- The first element with a property, by what comes before it. -/
theorem findIdx?_eq_dropWhile (p : α → Bool) (l : List α) :
    l.findIdx? p =
      if (l.dropWhile fun x => !p x) = [] then none
      else some (l.takeWhile fun x => !p x).length := by
  induction l with
  | nil => rfl
  | cons c rest ih =>
    rw [List.findIdx?_cons, ih, List.dropWhile_cons, List.takeWhile_cons]
    cases p c with
    | true => simp
    | false =>
      by_cases hrest : (rest.dropWhile fun x => !p x) = []
      · simp [hrest]
      · simp [hrest]

theorem drop_length_takeWhile (p : α → Bool) (l : List α) :
    l.drop (l.takeWhile p).length = l.dropWhile p := by
  have h : (l.takeWhile p ++ l.dropWhile p).drop (l.takeWhile p).length = l.dropWhile p :=
    List.drop_left
  rwa [List.takeWhile_append_dropWhile] at h

theorem take_length_takeWhile (p : α → Bool) (l : List α) :
    l.take (l.takeWhile p).length = l.takeWhile p := by
  have h : (l.takeWhile p ++ l.dropWhile p).take (l.takeWhile p).length = l.takeWhile p :=
    List.take_left
  rwa [List.takeWhile_append_dropWhile] at h

theorem length_dropWhile_lt {l : List α} {c : α} {rest : List α}
    (h : l.dropWhile sep = c :: rest) :
    ((c :: rest).dropWhile fun x => !sep x).length < l.length := by
  have hc : sep c = false := by
    have hhead := List.head_dropWhile_not sep (l := l) (by simp [h])
    simpa [h] using hhead
  have hle : (rest.dropWhile fun x => !sep x).length ≤ rest.length :=
    (List.dropWhile_suffix _).length_le
  have hl : (c :: rest).length ≤ l.length := h ▸ (List.dropWhile_suffix _).length_le
  simp only [List.dropWhile_cons, hc, Bool.not_false, if_true]
  simp only [List.length_cons] at hl
  omega

/-- The words of a list. -/
def words (sep : α → Bool) (l : List α) : List (List α) :=
  match _h : l.dropWhile sep with
  | [] => []
  | c :: rest =>
    ((c :: rest).takeWhile fun x => !sep x) :: words sep ((c :: rest).dropWhile fun x => !sep x)
termination_by l.length
decreasing_by exact length_dropWhile_lt _h

theorem words_of_nil {l : List α} (h : l.dropWhile sep = []) : words sep l = [] := by
  rw [words]
  split
  · rfl
  · rename_i hcons
    rw [h] at hcons
    cases hcons

theorem words_of_cons {l : List α} {c : α} {rest : List α} (h : l.dropWhile sep = c :: rest) :
    words sep l =
      ((c :: rest).takeWhile fun x => !sep x) ::
        words sep ((c :: rest).dropWhile fun x => !sep x) := by
  rw [words]
  split
  · rename_i hnil
    rw [h] at hnil
    cases hnil
  · rename_i hcons
    rw [h] at hcons
    cases hcons
    rfl

@[simp] theorem words_nil : words sep ([] : List α) = [] := words_of_nil rfl

/-- Separators before a word do not count. -/
theorem words_sep {s : α} (hs : sep s = true) (text : List α) :
    words sep (s :: text) = words sep text := by
  have hdrop : (s :: text).dropWhile sep = text.dropWhile sep := by
    simp [hs]
  cases h : text.dropWhile sep with
  | nil => rw [words_of_nil h, words_of_nil (hdrop.trans h)]
  | cons c rest => rw [words_of_cons h, words_of_cons (hdrop.trans h)]

variable {w : List α}

/-- A word that ends with the text. -/
theorem words_word (hne : w ≠ []) (hw : ∀ c ∈ w, sep c = false) : words sep w = [w] := by
  obtain ⟨c, rest, rfl⟩ := List.exists_cons_of_ne_nil hne
  have hnot : ∀ x ∈ c :: rest, (!sep x) = true := by
    intro x hx
    simp [hw x hx]
  have hdrop : (c :: rest).dropWhile sep = c :: rest := by
    simp [hw c List.mem_cons_self]
  rw [words_of_cons hdrop, List.takeWhile_eq_self_iff.mpr hnot,
    List.dropWhile_eq_nil_iff.mpr hnot, words_nil]

/-- A word that a separator ends. -/
theorem words_word_sep (hne : w ≠ []) (hw : ∀ c ∈ w, sep c = false) {s : α} (hs : sep s = true)
    (text : List α) : words sep (w ++ s :: text) = w :: words sep text := by
  obtain ⟨c, rest, rfl⟩ := List.exists_cons_of_ne_nil hne
  have hnot : ∀ x ∈ c :: rest, (!sep x) = true := by
    intro x hx
    simp [hw x hx]
  have hdrop : ((c :: rest) ++ s :: text).dropWhile sep = c :: (rest ++ s :: text) := by
    simp [hw c List.mem_cons_self]
  rw [words_of_cons hdrop, ← List.cons_append, List.takeWhile_append_of_pos hnot,
    List.dropWhile_append_of_pos hnot]
  simp [hs, words_sep hs]

/-- Words with a separator after each of them. -/
theorem words_terminated {s : α} (hs : sep s = true) {ws : List (List α)}
    (h : ∀ w ∈ ws, w ≠ [] ∧ ∀ c ∈ w, sep c = false) :
    words sep (ws.flatMap fun w => w ++ [s]) = ws := by
  induction ws with
  | nil => exact words_nil
  | cons w rest ih =>
    obtain ⟨hne, hw⟩ := h w List.mem_cons_self
    rw [List.flatMap_cons, List.append_assoc, List.singleton_append, words_word_sep hne hw hs,
      ih fun w' hw' => h w' (List.mem_cons_of_mem w hw')]

theorem words_intercalate {s : α} (hs : sep s = true) {ws : List (List α)}
    (h : ∀ w ∈ ws, w ≠ [] ∧ ∀ c ∈ w, sep c = false) :
    words sep (List.intercalate [s] ws) = ws := by
  induction ws with
  | nil => exact words_nil
  | cons w rest ih =>
    obtain ⟨hne, hw⟩ := h w List.mem_cons_self
    have hrest := ih fun w' hw' => h w' (List.mem_cons_of_mem w hw')
    cases rest with
    | nil =>
      rw [List.intercalate_singleton]
      exact words_word hne hw
    | cons w' rest' =>
      rw [List.intercalate_cons_cons, List.append_assoc, List.singleton_append,
        words_word_sep hne hw hs, hrest]

/-! ## Gaps and words -/

inductive Runs (sep : α → Bool) : List α → List (List α) → Prop
  | gap {l : List α} (hl : ∀ c ∈ l, sep c = true) : Runs sep l []
  | run {gap word rest : List α} {ws : List (List α)} (hgap : ∀ c ∈ gap, sep c = true)
      (hne : word ≠ []) (hword : ∀ c ∈ word, sep c = false)
      (hend : ∀ c ∈ rest.head?, sep c = true) (h : Runs sep rest ws) :
      Runs sep (gap ++ (word ++ rest)) (word :: ws)

theorem words_gap {gap : List α} (hgap : ∀ c ∈ gap, sep c = true) (text : List α) :
    words sep (gap ++ text) = words sep text := by
  induction gap with
  | nil => rfl
  | cons c rest ih =>
    rw [List.cons_append, words_sep (hgap c List.mem_cons_self),
      ih fun x hx => hgap x (List.mem_cons_of_mem c hx)]

/-- The text decides its gaps and words. -/
theorem Runs.eq_words {l : List α} {ws : List (List α)} (h : Runs sep l ws) :
    ws = words sep l := by
  induction h with
  | gap hl => exact (words_of_nil (List.dropWhile_eq_nil_iff.mpr hl)).symm
  | @run gap word rest ws hgap hne hword hend _ ih =>
    rw [words_gap hgap, ih]
    cases rest with
    | nil => rw [List.append_nil, words_nil, words_word hne hword]
    | cons s text =>
      have hs : sep s = true := hend s rfl
      rw [words_word_sep hne hword hs, words_sep hs]

theorem runs_words (l : List α) : Runs sep l (words sep l) := by
  induction l using words.induct sep with
  | case1 l hnil =>
    rw [words_of_nil hnil]
    exact .gap (List.dropWhile_eq_nil_iff.mp hnil)
  | case2 l c rest hcons ih =>
    have hc : sep c = false := by
      have hhead := List.head?_dropWhile_not sep l
      simpa [hcons] using hhead
    have hgap : ∀ x ∈ l.takeWhile sep, sep x = true := fun x hx => List.mem_takeWhile_imp hx
    have hne : ((c :: rest).takeWhile fun x => !sep x) ≠ [] := by simp [hc]
    have hword : ∀ x ∈ (c :: rest).takeWhile fun x => !sep x, sep x = false := by
      intro x hx
      simpa using List.mem_takeWhile_imp hx
    have hend : ∀ x ∈ ((c :: rest).dropWhile fun x => !sep x).head?, sep x = true := by
      intro x hx
      have hhead := List.head?_dropWhile_not (fun x => !sep x) (c :: rest)
      rw [Option.mem_def] at hx
      simpa [hx] using hhead
    have h := Runs.run hgap hne hword hend ih
    rwa [List.takeWhile_append_dropWhile, ← hcons, List.takeWhile_append_dropWhile, hcons,
      ← words_of_cons hcons] at h

end Words
