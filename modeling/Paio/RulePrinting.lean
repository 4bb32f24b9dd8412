import Paio.Library.CString
import Paio.RulesParser

/-!
# Paio.RulePrinting

`parse_rule` as the loop that it is, and `print_rules`. The loop goes from one token to the next by
two searches. A search gives `npos` when it finds nothing; the end of the last token can be `npos`,
and then the next search finds nothing and the length of the token is more than there is left.

* `parseTokens_eq`: the loop comes to an end, and its tokens are the words of the line.
* `readRulesFromFile_printRules`: tokens that are read, printed and read again are the same.
-/

namespace Paio

namespace RulesParser

open CString (cString cString_eq_self)

/-! ## The loop of `parse_rule` -/

/-- A position in a string or `npos`. -/
abbrev Position := Option Nat

/-- The first place from the position on where the string has another character. -/
def findFirstNotOf (s : Text) (c : UInt8) (pos : Position) : Position :=
  pos.bind fun p => ((s.drop p).findIdx? fun x => !decide (x = c)).map (p + ·)

/-- The first place from the position on where the string has the character. -/
def find (s : Text) (c : UInt8) (pos : Position) : Position :=
  pos.bind fun p => ((s.drop p).findIdx? fun x => decide (x = c)).map (p + ·)

/-- `substr (start, end - start)`; from `npos` it is the rest of the string. -/
def substr (s : Text) (start : Nat) (last : Position) : Text :=
  match last with
  | none => s.drop start
  | some p => (s.drop start).take (p - start)

/-- The loop of `parse_rule`, with `none` when the fuel does not suffice. -/
def parseTokens (rule : Text) : Nat → Position → List Text → Option (List Text)
  | 0, _, _ => none
  | fuel + 1, last, tokens =>
    match findFirstNotOf rule space last with
    | none => some tokens
    | some start =>
      let last' := find rule space (some start)
      parseTokens rule fuel last' (tokens ++ [substr rule start last'])

/-- The separator of tokens. -/
abbrev isSpaceByte (c : UInt8) : Bool := decide (c = space)

theorem parseTokens_npos (rule : Text) (fuel : Nat) (tokens : List Text) :
    parseTokens rule (fuel + 1) none tokens = some tokens := rfl

/-- From a position on, the loop adds the words of the rest of the line. -/
theorem parseTokens_drop (rule : Text) (fuel e : Nat) (tokens : List Text)
    (h : (rule.drop e).length < fuel) :
    parseTokens rule fuel (some e) tokens = some (tokens ++ parseRule (rule.drop e)) := by
  induction fuel generalizing e tokens with
  | zero => omega
  | succ fuel ih =>
    have hfirst : findFirstNotOf rule space (some e) =
        ((rule.drop e).findIdx? fun x => !decide (x = space)).map (e + ·) := rfl
    rw [Words.findIdx?_eq_dropWhile] at hfirst
    simp only [Bool.not_not] at hfirst
    rw [parseTokens, hfirst]
    cases hu : (rule.drop e).dropWhile isSpaceByte with
    | nil =>
      rw [parseRule, Words.words_of_nil hu]
      simp
    | cons c rest =>
      have hlen := Words.length_dropWhile_lt hu
      simp only [reduceCtorEq, if_false, Option.map_some]
      have hstart : rule.drop (e + ((rule.drop e).takeWhile isSpaceByte).length) = c :: rest := by
        rw [← List.drop_drop, Words.drop_length_takeWhile, hu]
      generalize e + ((rule.drop e).takeWhile isSpaceByte).length = start at hstart
      have hlast : find rule space (some start) =
          ((rule.drop start).findIdx? isSpaceByte).map (start + ·) := rfl
      rw [hstart, Words.findIdx?_eq_dropWhile] at hlast
      rw [parseRule, Words.words_of_cons hu, hlast]
      by_cases hv : ((c :: rest).dropWhile fun x => !isSpaceByte x) = []
      · -- The last token: its end is `npos`.
        obtain ⟨fuel, rfl⟩ : ∃ n, fuel = n + 1 := Nat.exists_eq_succ_of_ne_zero (by omega)
        have htoken : ((c :: rest).takeWhile fun x => !isSpaceByte x) = c :: rest := by
          conv_rhs => rw [← List.takeWhile_append_dropWhile (p := fun x => !isSpaceByte x)
            (l := c :: rest), hv, List.append_nil]
        rw [if_pos hv, hv, htoken, Words.words_nil]
        show parseTokens rule (fuel + 1) none (tokens ++ [rule.drop start]) = _
        rw [hstart, parseTokens_npos]
      · have hrest : rule.drop (start + ((c :: rest).takeWhile fun x => !isSpaceByte x).length) =
            (c :: rest).dropWhile fun x => !isSpaceByte x := by
          rw [← List.drop_drop, hstart, Words.drop_length_takeWhile]
        rw [if_neg hv, Option.map_some, ih _ _ (by rw [hrest]; omega), hrest, List.append_assoc,
          substr, hstart, Nat.add_sub_cancel_left, Words.take_length_takeWhile]
        rfl

/-- With more fuel than there are characters the loop comes to an end with the words of the line. -/
theorem parseTokens_eq (rule : Text) {fuel : Nat} (h : rule.length < fuel) :
    parseTokens rule fuel (some 0) [] = some (parseRule rule) :=
  parseTokens_drop rule fuel 0 [] h

/-! ## Printing -/

/-- `print_rules`: every token with a space after it, up to its first NUL, and every staged rule with
a newline. -/
def printRules (stagedRules : List (List Text)) : Text :=
  stagedRules.flatMap fun stagedRule =>
    (stagedRule.flatMap fun parameter => cString parameter ++ [space]) ++ [10]

/-- Every line that is terminated is read. -/
theorem getLines_terminated {lines : List Text} (h : ∀ line ∈ lines, 10 ∉ line) :
    getLines (lines.flatMap fun line => line ++ [10]) = lines := by
  have hsplit : (lines.flatMap fun line => line ++ [10]).splitOn 10 = lines ++ [[]] := by
    induction lines with
    | nil => rfl
    | cons line rest ih =>
      rw [List.flatMap_cons, List.append_assoc, List.singleton_append,
        List.splitOn_append_cons_self, List.splitOn_eq_singleton (h line List.mem_cons_self),
        ih fun l hl => h l (List.mem_cons_of_mem line hl)]
      rfl
  simp [getLines, hsplit]

/-- The bytes of a line are bytes of the file other than the newline. -/
theorem mem_getLines {content line : Text} (hline : line ∈ getLines content) :
    ∀ c ∈ line, c ∈ content ∧ c ≠ 10 := by
  have hsplit : ∀ content : Text, ∀ line ∈ content.splitOn 10, ∀ c ∈ line, c ∈ content ∧ c ≠ 10 := by
    intro content
    induction content with
    | nil => simp
    | cons d rest ih =>
      intro line hline c hc
      rw [List.splitOn_cons_eq_if_modifyHead] at hline
      by_cases hd : d = 10
      · rw [if_pos (by simpa using hd)] at hline
        rcases List.mem_cons.mp hline with rfl | hline
        · cases hc
        · exact ⟨List.mem_cons_of_mem d (ih line hline c hc).1, (ih line hline c hc).2⟩
      · rw [if_neg (by simpa using hd)] at hline
        obtain ⟨first, others, hfirst⟩ :=
          List.exists_cons_of_ne_nil (List.splitOn_ne_nil 10 rest)
        rw [hfirst] at hline ih
        rcases List.mem_cons.mp hline with rfl | hline
        · rcases List.mem_cons.mp hc with rfl | hc
          · exact ⟨List.mem_cons_self, hd⟩
          · have hin := ih first List.mem_cons_self c hc
            exact ⟨List.mem_cons_of_mem d hin.1, hin.2⟩
        · have hin := ih line (List.mem_cons_of_mem first hline) c hc
          exact ⟨List.mem_cons_of_mem d hin.1, hin.2⟩
  have hmem : line ∈ content.splitOn 10 := by
    simp only [getLines] at hline
    split at hline
    · exact List.mem_of_mem_dropLast hline
    · exact hline
  exact hsplit content line hmem

/-- A token is not empty, and its bytes are bytes of the line other than spaces. -/
theorem mem_parseRule {rule token : Text} (htoken : token ∈ parseRule rule) :
    token ≠ [] ∧ ∀ c ∈ token, c ∈ rule ∧ isSpaceByte c = false := by
  have hruns : ∀ {l : Text} {ws : List Text}, Words.Runs isSpaceByte l ws → ∀ w ∈ ws,
      w ≠ [] ∧ ∀ c ∈ w, c ∈ l ∧ isSpaceByte c = false := by
    intro l ws h
    induction h with
    | gap _ => simp
    | @run gap word rest ws _ hne hword _ _ ih =>
      intro w hw
      rcases List.mem_cons.mp hw with rfl | hw
      · refine ⟨hne, fun c hc => ⟨?_, hword c hc⟩⟩
        exact List.mem_append_right gap (List.mem_append_left rest hc)
      · refine ⟨(ih w hw).1, fun c hc => ⟨?_, ((ih w hw).2 c hc).2⟩⟩
        exact List.mem_append_right gap (List.mem_append_right word ((ih w hw).2 c hc).1)
  exact hruns (Words.runs_words rule) token htoken

/-- A staged rule as `print_rules` writes it, without the newline. -/
def printRule (stagedRule : List Text) : Text :=
  stagedRule.flatMap fun parameter => cString parameter ++ [space]

theorem printRules_eq (stagedRules : List (List Text)) :
    printRules stagedRules = (stagedRules.map printRule).flatMap fun line => line ++ [10] := by
  rw [List.flatMap_map]
  rfl

/-- Words without NUL bytes and newlines: what a line is made of. -/
def Printable (stagedRule : List Text) : Prop :=
  ∀ token ∈ stagedRule, token ≠ [] ∧ ∀ c ∈ token, c ≠ 0 ∧ c ≠ 10 ∧ isSpaceByte c = false

theorem printRule_eq {stagedRule : List Text} (h : Printable stagedRule) :
    printRule stagedRule = stagedRule.flatMap fun token => token ++ [space] := by
  unfold printRule
  refine List.flatMap_congr fun token htoken => ?_
  have hnul : 0 ∉ token := fun hmem => ((h token htoken).2 0 hmem).1 rfl
  rw [cString_eq_self hnul]

theorem newline_not_mem_printRule {stagedRule : List Text} (h : Printable stagedRule) :
    10 ∉ printRule stagedRule := by
  rw [printRule_eq h]
  intro hmem
  obtain ⟨token, htoken, hc⟩ := List.mem_flatMap.mp hmem
  rcases List.mem_append.mp hc with hc | hc
  · exact ((h token htoken).2 10 hc).2.1 rfl
  · cases List.mem_singleton.mp hc

theorem parseRule_printRule {stagedRule : List Text} (h : Printable stagedRule) :
    parseRule (printRule stagedRule) = stagedRule := by
  rw [printRule_eq h]
  refine Words.words_terminated rfl fun token htoken => ⟨(h token htoken).1, fun c hc => ?_⟩
  exact ((h token htoken).2 c hc).2.2

/-- Staged rules that can be printed are read back. -/
theorem readRulesFromFile_printRules {stagedRules : List (List Text)}
    (h : ∀ stagedRule ∈ stagedRules, Printable stagedRule) :
    readRulesFromFile (some (printRules stagedRules)) = stagedRules := by
  have hlines : ∀ line ∈ stagedRules.map printRule, 10 ∉ line := by
    intro line hline
    obtain ⟨stagedRule, hrule, rfl⟩ := List.mem_map.mp hline
    exact newline_not_mem_printRule (h stagedRule hrule)
  rw [readRulesFromFile, printRules_eq, getLines_terminated hlines, List.map_map]
  calc stagedRules.map (parseRule ∘ printRule) = stagedRules.map id :=
        List.map_congr_left fun stagedRule hrule => parseRule_printRule (h stagedRule hrule)
    _ = stagedRules := List.map_id _

theorem printable_of_read {content : Text} (h : 0 ∉ content) :
    ∀ stagedRule ∈ readRulesFromFile (some content), Printable stagedRule := by
  intro stagedRule hrule token htoken
  obtain ⟨line, hline, rfl⟩ := List.mem_map.mp hrule
  obtain ⟨hne, hbytes⟩ := mem_parseRule htoken
  refine ⟨hne, fun c hc => ?_⟩
  obtain ⟨hin, hspace⟩ := hbytes c hc
  obtain ⟨hcontent, hnewline⟩ := mem_getLines hline c hin
  exact ⟨ne_of_mem_of_not_mem hcontent h, hnewline, hspace⟩

/-- The loop of `parse_rule` ends for every line and yields its maximal runs of characters that are
no spaces, and what is read from a file without NUL bytes is read again from its printed form. -/
theorem tokens_round_trip :
    (∀ rule : Text,
      (∃ tokens, Words.Runs isSpaceByte rule tokens ∧
        ∀ fuel, rule.length < fuel → parseTokens rule fuel (some 0) [] = some tokens) ∧
      ∀ tokens, Words.Runs isSpaceByte rule tokens → tokens = parseRule rule) ∧
    ∀ content : Text, 0 ∉ content →
      readRulesFromFile (some (printRules (readRulesFromFile (some content)))) =
        readRulesFromFile (some content) := by
  constructor
  · intro rule
    refine ⟨⟨parseRule rule, Words.runs_words rule, fun fuel h => parseTokens_eq rule h⟩, ?_⟩
    intro tokens h
    exact h.eq_words
  · intro content h
    exact readRulesFromFile_printRules (printable_of_read h)

/-- A blank line, spaces in all places and no newline at the end. -/
theorem tokens_round_trip_spaces :
    readRulesFromFile (some (printRules (readRulesFromFile (some (text "\n 1  a \n b"))))) =
      readRulesFromFile (some (text "\n 1  a \n b")) :=
  tokens_round_trip.2 (text "\n 1  a \n b") (by decide)

end RulesParser

end Paio
