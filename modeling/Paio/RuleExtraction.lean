import Paio.RulesParser

/-!
# Paio.RuleExtraction

The loops that take rules from the staged lines. The three getters share one loop
(`collectRules`); what it does depends on the lines that it gets to (`visited`): all lines up to one
that fails or to the rule with which the limit is reached.

* `extraction_limit_iff`: the limit is compared with the number of rules after a rule is appended,
  so a limit of `0` is never met, and `-1` stands for the largest `int`.
* `extraction_in_bounds_iff`: the operation of a line is read before its length is known, and the
  lengths that are compared are not those that are read afterwards.
-/

namespace Paio

namespace RulesParser

section Loop

variable {ρ : Type} (convert : List Text → Except ParseFault (Option ρ))

/-- The lines that the loop gets to, the one with which it ends included. -/
def visited (totalRules : Int) : Int → List (List Text) → List (List Text)
  | _, [] => []
  | rulesPassed, stagedRule :: rest =>
    stagedRule ::
      match convert stagedRule with
      | .error _ => []
      | .ok none => visited totalRules rulesPassed rest
      | .ok (some _) =>
        if rulesPassed + 1 = totalRules then [] else visited totalRules (rulesPassed + 1) rest

/-- The loop with the number that it returns. -/
def countRules (totalRules : Int) :
    Int → List (List Text) → Except ParseFault (List ρ × Int)
  | rulesPassed, [] => .ok ([], rulesPassed)
  | rulesPassed, stagedRule :: rest =>
    match convert stagedRule with
    | .error f => .error f
    | .ok none => countRules totalRules rulesPassed rest
    | .ok (some rule) =>
      if rulesPassed + 1 = totalRules then .ok ([rule], rulesPassed + 1)
      else
        match countRules totalRules (rulesPassed + 1) rest with
        | .ok (rules, passed) => .ok (rule :: rules, passed)
        | .error f => .error f

/-- The rules of all lines that are rules. -/
def rulesOf (stagedRules : List (List Text)) : List ρ :=
  stagedRules.filterMap fun stagedRule =>
    match convert stagedRule with
    | .ok rule => rule
    | .error _ => none

variable {convert} {totalRules rulesPassed : Int} {stagedRules : List (List Text)}

/-- The number is that of the rules. -/
theorem countRules_eq (totalRules rulesPassed : Int) (stagedRules : List (List Text)) :
    countRules convert totalRules rulesPassed stagedRules =
      (collectRules convert totalRules rulesPassed stagedRules).map fun rules =>
        (rules, rulesPassed + rules.length) := by
  induction stagedRules generalizing rulesPassed with
  | nil => simp [countRules, collectRules, Except.map]
  | cons stagedRule rest ih =>
    rw [countRules, collectRules]
    cases convert stagedRule with
    | error f => rfl
    | ok o =>
      cases o with
      | none => exact ih rulesPassed
      | some rule =>
        simp only
        split
        · rfl
        · rw [ih]
          cases collectRules convert totalRules (rulesPassed + 1) rest with
          | error f => rfl
          | ok rules =>
            simp only [Except.map, List.length_cons, Nat.cast_add, Nat.cast_one]
            congr 2
            omega

/-- When no line fails, the loop appends the first rules, up to the limit; a limit that is behind
is never met. -/
theorem collectRules_eq_take (hok : ∀ l ∈ stagedRules, ∃ o, convert l = .ok o) :
    collectRules convert totalRules rulesPassed stagedRules =
      .ok (if rulesPassed < totalRules then
          (rulesOf convert stagedRules).take (totalRules - rulesPassed).toNat
        else rulesOf convert stagedRules) := by
  induction stagedRules generalizing rulesPassed with
  | nil => simp [collectRules, rulesOf]
  | cons stagedRule rest ih =>
    have hrest : ∀ l ∈ rest, ∃ o, convert l = .ok o :=
      fun l hl => hok l (List.mem_cons_of_mem stagedRule hl)
    obtain ⟨o, ho⟩ := hok stagedRule List.mem_cons_self
    have hall : rulesOf convert (stagedRule :: rest) = o.toList ++ rulesOf convert rest := by
      unfold rulesOf
      rw [List.filterMap_cons, ho]
      cases o <;> rfl
    rw [collectRules, ho, hall]
    cases o with
    | none => exact ih hrest
    | some rule =>
      simp only [Option.toList_some, List.singleton_append]
      by_cases hlast : rulesPassed + 1 = totalRules
      · have hone : (totalRules - rulesPassed).toNat = 1 := by omega
        rw [if_pos hlast, if_pos (by omega), hone]
        rfl
      · rw [if_neg hlast, ih hrest]
        by_cases hlt : rulesPassed < totalRules
        · have hsucc : (totalRules - rulesPassed).toNat =
              (totalRules - (rulesPassed + 1)).toNat + 1 := by omega
          rw [if_pos hlt, if_pos (by omega), hsucc]
          rfl
        · rw [if_neg hlt, if_neg (by omega)]

/-! ## The limit -/

variable (convert) in
/-- The first `n` rules and their number; all of them for `-1`. -/
def Limited (n : Int) (stagedRules : List (List Text)) : Prop :=
  countRules convert (limit n) 0 stagedRules =
    if n = -1 then .ok (rulesOf convert stagedRules, (rulesOf convert stagedRules).length)
    else .ok ((rulesOf convert stagedRules).take n.toNat,
      min n (rulesOf convert stagedRules).length)

variable (convert) in
/-- A limit of `0` meets no rule, and without a limit there are no more rules than an `int` can
count. -/
def LimitFits (n : Int) (stagedRules : List (List Text)) : Prop :=
  (n = 0 → rulesOf convert stagedRules = []) ∧
  (n = -1 → (rulesOf convert stagedRules).length < 2 ^ 31)

theorem limited_iff {n : Int} (hn : -1 ≤ n) (hok : ∀ l ∈ stagedRules, ∃ o, convert l = .ok o) :
    Limited convert n stagedRules ↔ LimitFits convert n stagedRules := by
  rw [Limited, LimitFits, countRules_eq, collectRules_eq_take hok]
  generalize rulesOf convert stagedRules = rules
  obtain rfl | rfl | hpos : n = -1 ∨ n = 0 ∨ 0 < n := by omega
  · have hlimit : limit (-1) = 2147483647 := rfl
    have htake : rules.take 2147483647 = rules ↔ rules.length < 2 ^ 31 := by
      rw [List.take_eq_self_iff]
      omega
    simp only [hlimit, Except.map, if_true, Except.ok.injEq, Prod.mk.injEq, Int.sub_zero,
      Int.reduceNeg, Int.reduceLT, Int.reduceToNat, Int.reduceEq, false_implies,
      true_and, forall_const, ← htake, zero_add]
    constructor
    · exact fun h => h.1
    · intro h
      rw [h]
      exact ⟨rfl, rfl⟩
  · have hlimit : limit 0 = 0 := rfl
    simp [hlimit, Except.map]
  · have hlimit : limit n = n := if_neg (by omega)
    have hmin : ((rules.take n.toNat).length : Int) = min n rules.length := by
      rw [List.length_take]
      omega
    simp only [hlimit, Except.map, Int.sub_zero, zero_add]
    rw [if_pos hpos, if_neg (by omega), hmin]
    constructor
    · intro _
      exact ⟨fun h => absurd h (by omega), fun h => absurd h (by omega)⟩
    · intro _
      rfl

theorem map_fst_countRules (totalRules rulesPassed : Int) (stagedRules : List (List Text)) :
    (countRules convert totalRules rulesPassed stagedRules).map Prod.fst =
      collectRules convert totalRules rulesPassed stagedRules := by
  rw [countRules_eq]
  cases collectRules convert totalRules rulesPassed stagedRules <;> rfl

end Loop

/-- The getters append what the loop counts. -/
theorem getters_eq (stagedRules : List (List Text)) (n : Int) :
    getCreateChannelRules stagedRules n =
        (countRules createChannelRule (limit n) 0 stagedRules).map Prod.fst ∧
    getCreateObjectRules stagedRules n =
        (countRules createObjectRule (limit n) 0 stagedRules).map Prod.fst ∧
    getEnforcementRules stagedRules n =
        (countRules enforcementRule (limit n) 0 stagedRules).map Prod.fst :=
  ⟨(map_fst_countRules _ _ _).symm, (map_fst_countRules _ _ _).symm,
    (map_fst_countRules _ _ _).symm⟩

/-- On complete rules, each getter honours a limit unless it is `0` and there are rules of its type,
or there is none and there are more rules than an `int` can count. -/
theorem extraction_limit_iff (stagedRules : List (List Text)) (n : Int) (hn : -1 ≤ n) :
    ((∀ l ∈ stagedRules, ∃ rule, createChannelRule l = .ok rule) →
      (Limited createChannelRule n stagedRules ↔ LimitFits createChannelRule n stagedRules)) ∧
    ((∀ l ∈ stagedRules, ∃ rule, createObjectRule l = .ok rule) →
      (Limited createObjectRule n stagedRules ↔ LimitFits createObjectRule n stagedRules)) ∧
    ((∀ l ∈ stagedRules, ∃ rule, enforcementRule l = .ok rule) →
      (Limited enforcementRule n stagedRules ↔ LimitFits enforcementRule n stagedRules)) :=
  ⟨limited_iff hn, limited_iff hn, limited_iff hn⟩

/-- `1 5 7 drl refill`, an enforcement rule. -/
def refillLine : List Text := [text "1", text "5", text "7", text "drl", text "refill"]

/-- `1 create_channel 5 general 2 no_op no_op`. -/
def channelLine : List Text :=
  [text "1", text "create_channel", text "5", text "general", text "2", text "no_op", text "no_op"]

/-- `2 create_object 5 7 general no_op no_op noop 0 0`. -/
def objectLine : List Text :=
  [text "2", text "create_object", text "5", text "7", text "general", text "no_op", text "no_op",
    text "noop", text "0", text "0"]

def channelLineRule : HousekeepingRule where
  ruleId := 1
  ruleType := .createChannel
  channelId := 5
  enforcementObjectId := -1
  properties := [0, 2, 0, 0]

theorem createChannelRule_lines :
    createChannelRule channelLine = .ok (some channelLineRule) ∧
      createChannelRule objectLine = .ok none :=
  ⟨rfl, rfl⟩

theorem extraction_limit_iff_one :
    Limited createChannelRule 1 [channelLine, objectLine] ↔
      LimitFits createChannelRule 1 [channelLine, objectLine] := by
  refine (extraction_limit_iff [channelLine, objectLine] 1 (by decide)).1 ?_
  intro l hl
  simp only [List.mem_cons, List.not_mem_nil, or_false] at hl
  obtain rfl | rfl := hl
  · exact ⟨_, createChannelRule_lines.1⟩
  · exact ⟨_, createChannelRule_lines.2⟩

/-- With a limit of `0` each getter appends the one rule of its type. -/
theorem limit_zero_appends :
    countRules createChannelRule (limit 0) 0 [channelLine] = .ok ([channelLineRule], 1) ∧
    countRules createObjectRule (limit 0) 0 [objectLine] = .ok
      ([{ ruleId := 2, ruleType := .createObject, channelId := 5, enforcementObjectId := 7,
          properties := [0, 0, 0, 0, 0, 0] }], 1) ∧
    countRules enforcementRule (limit 0) 0 [refillLine] = .ok
      ([{ ruleId := 1, channelId := 5, enforcementObjectId := 7, operationType := 4 }], 1) :=
  ⟨rfl, rfl, rfl⟩

/-! ## Missing tokens -/

section Bounds

variable {ρ α β : Type}

/-- The computation does not read a token that is missing. -/
def InBounds (x : Except ParseFault α) : Prop := x ≠ .error .outOfBounds

theorem InBounds.bind {x : Except ParseFault α} {f : α → Except ParseFault β} (hx : InBounds x)
    (hf : ∀ a, x = .ok a → InBounds (f a)) : InBounds (x >>= f) := by
  cases x with
  | error e =>
    intro h
    simp only [Bind.bind, Except.bind, Except.error.injEq] at h
    rw [h] at hx
    exact hx rfl
  | ok a => exact hf a rfl

theorem inBounds_ok (a : α) : InBounds (.ok a : Except ParseFault α) := by
  intro h
  cases h

theorem inBounds_field {l : List Text} {i : Nat} (h : i < l.length) : InBounds (field l i) := by
  simp only [field, List.getElem?_eq_getElem h]
  exact inBounds_ok _

/-- A number that does not fit is another exception. -/
theorem inBounds_range {c : Prop} [Decidable c] (a : α) :
    InBounds (if c then .ok a else .error .outOfRange) := by
  split
  · exact inBounds_ok a
  · intro h
    cases h

theorem inBounds_stol (s : Text) : InBounds (stol s) := by
  unfold stol
  split
  · intro h
    cases h
  · exact inBounds_range _

theorem inBounds_stoull (s : Text) : InBounds (stoull s) := by
  unfold stoull
  split
  · intro h
    cases h
  · exact inBounds_range _

theorem inBounds_convertDefinitions (name : String) (table : List (String × Int)) (s : Text) :
    InBounds (convertDefinitions name table s) := by
  unfold convertDefinitions
  split
  · exact inBounds_ok _
  · intro h
    cases h

theorem inBounds_convertDifferentiationDefinitions (contextType s : Text) :
    InBounds (convertDifferentiationDefinitions contextType s) := by
  unfold convertDifferentiationDefinitions
  split
  · rename_i convert hconvert
    obtain ⟨c, hfind, rfl⟩ := Option.map_eq_some_iff.mp hconvert
    have hc := List.mem_of_find?_eq_some hfind
    simp only [List.mem_cons, List.not_mem_nil, or_false] at hc
    obtain rfl | rfl | rfl | rfl | rfl | rfl := hc <;> exact inBounds_convertDefinitions _ _ s
  · exact inBounds_ok _

/-- A line with which a conversion goes on has a rule: it is not skipped. -/
def Converts (x : Except ParseFault (Option ρ)) : Prop := x ≠ .ok none

theorem converts_bind {x : Except ParseFault α} {f : α → Except ParseFault (Option ρ)}
    (hf : ∀ a, Converts (f a)) : Converts (x >>= f) := by
  cases x with
  | error e =>
    intro h
    cases h
  | ok a => exact hf a

theorem converts_some (rule : ρ) : Converts (pure (some rule)) := by
  intro h
  cases h

/-- What a token is when it is there. -/
theorem field_eq {l : List Text} {i : Nat} (h : i < l.length) : field l i = .ok (l.getD i []) := by
  simp [field, List.getElem?_eq_getElem h]

theorem field_missing {l : List Text} {i : Nat} (h : l.length ≤ i) :
    field l i = .error .outOfBounds := by
  simp [field, List.getElem?_eq_none h]

variable {convert : List Text → Except ParseFault (Option ρ)} {enough : List Text → Prop}
  [DecidablePred enough] {totalRules rulesPassed : Int} {stagedRules : List (List Text)}

theorem inBounds_collectRules
    (h : ∀ l ∈ visited convert totalRules rulesPassed stagedRules, InBounds (convert l)) :
    InBounds (collectRules convert totalRules rulesPassed stagedRules) := by
  induction stagedRules generalizing rulesPassed with
  | nil => exact inBounds_ok _
  | cons stagedRule rest ih =>
    have hfirst := h stagedRule List.mem_cons_self
    have hrest : ∀ l ∈ _, InBounds (convert l) := fun l hl => h l (List.mem_cons_of_mem _ hl)
    rw [collectRules]
    cases hc : convert stagedRule with
    | error e =>
      rw [hc] at hfirst
      intro he
      exact hfirst (congrArg _ (Except.error.inj he))
    | ok o =>
      simp only [hc] at hrest
      cases o with
      | none => exact ih hrest
      | some rule =>
        simp only at hrest ⊢
        split
        · exact inBounds_ok _
        · rename_i hmore
          rw [if_neg hmore] at hrest
          have hih := ih hrest
          split
          · exact inBounds_ok _
          · rename_i f hf
            rw [hf] at hih
            intro he
            exact hih (congrArg _ (Except.error.inj he))

/-- Lines that the loop skips make no difference. -/
theorem collectRules_filter
    (h : ∀ l ∈ visited convert totalRules rulesPassed stagedRules, ¬ enough l →
      convert l = .ok none) :
    collectRules convert totalRules rulesPassed (stagedRules.filter enough) =
      collectRules convert totalRules rulesPassed stagedRules := by
  induction stagedRules generalizing rulesPassed with
  | nil => rfl
  | cons stagedRule rest ih =>
    have hrest : ∀ l ∈ _, ¬ enough l → convert l = .ok none :=
      fun l hl => h l (List.mem_cons_of_mem _ hl)
    by_cases hkeep : enough stagedRule
    · rw [List.filter_cons_of_pos (by simpa using hkeep), collectRules, collectRules]
      cases hc : convert stagedRule with
      | error e => rfl
      | ok o =>
        simp only [hc] at hrest
        cases o with
        | none => exact ih hrest
        | some rule =>
          simp only at hrest ⊢
          split
          · rfl
          · rename_i hmore
            rw [if_neg hmore] at hrest
            rw [ih hrest]
    · have hskip := h stagedRule List.mem_cons_self hkeep
      rw [List.filter_cons_of_neg (by simpa using hkeep), collectRules, hskip]
      simp only [hskip] at hrest
      exact ih hrest

/-- No missing token is read, and the lines that have too few tokens are skipped and make no
difference to the rules. -/
structure Extracts (get : List (List Text) → Int → Except ParseFault (List ρ))
    (convert : List Text → Except ParseFault (Option ρ)) (enough : List Text → Prop)
    [DecidablePred enough] (stagedRules : List (List Text)) (n : Int) : Prop where
  inBounds : InBounds (get stagedRules n)
  skipped : ∀ l ∈ visited convert (limit n) 0 stagedRules, ¬ enough l → convert l = .ok none
  indifferent : get (stagedRules.filter enough) n = get stagedRules n

theorem extracts_iff {get : List (List Text) → Int → Except ParseFault (List ρ)} {n : Int}
    {Harmless : List Text → Prop}
    (hget : ∀ staged, get staged n = collectRules convert (limit n) 0 staged)
    (henough : ∀ l, enough l → InBounds (convert l) ∧ Harmless l)
    (hshort : ∀ l, ¬ enough l → (convert l = .ok none ↔ Harmless l)) :
    Extracts get convert enough stagedRules n ↔
      ∀ l ∈ visited convert (limit n) 0 stagedRules, Harmless l := by
  constructor
  · intro h l hl
    by_cases hkeep : enough l
    · exact (henough l hkeep).2
    · exact (hshort l hkeep).mp (h.skipped l hl hkeep)
  · intro h
    have hskipped : ∀ l ∈ visited convert (limit n) 0 stagedRules, ¬ enough l →
        convert l = .ok none := fun l hl hkeep => (hshort l hkeep).mpr (h l hl)
    refine ⟨?_, hskipped, ?_⟩
    · rw [hget]
      refine inBounds_collectRules fun l hl => ?_
      by_cases hkeep : enough l
      · exact (henough l hkeep).1
      · rw [hskipped l hl hkeep]
        exact inBounds_ok _
    · rw [hget, hget, collectRules_filter hskipped]

end Bounds

/-! ### The tokens of a line -/

/-- The operation that a line names. -/
def operationOf (l : List Text) : HousekeepingOperation := convertHousekeepingOperation (l.getD 1 [])

/-- The enforcement operation that a line names. -/
def enforcementOf (l : List Text) : Int :=
  convertEnforcementOperation (convertObjectType (l.getD 3 [])) (l.getD 4 [])

/-- All tokens are there that the type of the rule needs. -/
def ChannelTokens (l : List Text) : Prop :=
  2 ≤ l.length ∧ (operationOf l = .createChannel → 7 ≤ l.length)

def ObjectTokens (l : List Text) : Prop :=
  2 ≤ l.length ∧ (operationOf l = .createObject → 10 ≤ l.length)

def EnforcementTokens (l : List Text) : Prop :=
  5 ≤ l.length ∧ (enforcementOf l = 1 → 7 ≤ l.length) ∧ (enforcementOf l = 2 → 6 ≤ l.length)

instance : DecidablePred ChannelTokens := fun _ => inferInstanceAs (Decidable (_ ∧ (_ → _)))

instance : DecidablePred ObjectTokens := fun _ => inferInstanceAs (Decidable (_ ∧ (_ → _)))

instance : DecidablePred EnforcementTokens :=
  fun _ => inferInstanceAs (Decidable (_ ∧ (_ → _) ∧ (_ → _)))

theorem inBounds_createChannelRule {l : List Text} (h : ChannelTokens l) :
    InBounds (createChannelRule l) := by
  obtain ⟨htwo, hseven⟩ := h
  rw [createChannelRule, field_eq htwo]
  show InBounds (if operationOf l = .createChannel then _ else _)
  split
  · rename_i hop
    have hlength := hseven hop
    split
    · exact inBounds_ok _
    · refine (inBounds_field (by omega)).bind fun contextType _ => ?_
      refine (inBounds_field (by omega)).bind fun _ _ => (inBounds_stol _).bind fun _ _ => ?_
      refine (inBounds_field (by omega)).bind fun _ _ =>
        (inBounds_convertDifferentiationDefinitions _ _).bind fun _ _ => ?_
      refine (inBounds_field (by omega)).bind fun _ _ =>
        (inBounds_convertDifferentiationDefinitions _ _).bind fun _ _ => ?_
      refine (inBounds_field (by omega)).bind fun _ _ => (inBounds_stoull _).bind fun _ _ => ?_
      refine (inBounds_field (by omega)).bind fun _ _ => (inBounds_stol _).bind fun _ _ => ?_
      exact inBounds_ok _
  · exact inBounds_ok _

/-- A channel line that is too short is skipped if it has an operation. -/
theorem createChannelRule_skips {l : List Text} (h : ¬ ChannelTokens l) :
    createChannelRule l = .ok none ↔ 2 ≤ l.length := by
  constructor
  · intro hskip
    by_contra hlt
    rw [createChannelRule, field_missing (by omega)] at hskip
    cases hskip
  · intro htwo
    have hshort : operationOf l = .createChannel ∧ l.length < 7 := by
      by_contra hnot
      exact h ⟨htwo, fun hop => by_contra fun hlt => hnot ⟨hop, by omega⟩⟩
    have hcount : toInt32 l.length < createChannelRulesMinElements := by
      rw [toInt32_natCast (by omega), createChannelRulesMinElements]
      omega
    rw [createChannelRule, field_eq htwo]
    show (if operationOf l = .createChannel then _ else _) = _
    rw [if_pos hshort.1, if_pos hcount]
    rfl

/-- The line has an operation, and it is no object line that passes the check of eight elements and
lacks one of the two that are read behind them. -/
def ObjectHarmless (l : List Text) : Prop :=
  2 ≤ l.length ∧ ¬ (operationOf l = .createObject ∧ (l.length = 8 ∨ l.length = 9))

theorem inBounds_createObjectRule {l : List Text} (h : ObjectTokens l) :
    InBounds (createObjectRule l) := by
  obtain ⟨htwo, hten⟩ := h
  rw [createObjectRule, field_eq htwo]
  show InBounds (if operationOf l = .createObject then _ else _)
  split
  · rename_i hop
    have hlength := hten hop
    split
    · exact inBounds_ok _
    · refine (inBounds_field (by omega)).bind fun contextType _ => ?_
      refine (inBounds_field (by omega)).bind fun _ _ =>
        (inBounds_convertDifferentiationDefinitions _ _).bind fun _ _ => ?_
      refine (inBounds_field (by omega)).bind fun _ _ =>
        (inBounds_convertDifferentiationDefinitions _ _).bind fun _ _ => ?_
      refine (inBounds_field (by omega)).bind fun objectType _ => ?_
      refine (inBounds_field (by omega)).bind fun _ _ => (inBounds_stol _).bind fun _ _ => ?_
      refine (inBounds_field (by omega)).bind fun _ _ => (inBounds_stol _).bind fun _ _ => ?_
      refine (inBounds_field (by omega)).bind fun _ _ => (inBounds_stoull _).bind fun _ _ => ?_
      refine (inBounds_field (by omega)).bind fun _ _ => (inBounds_stol _).bind fun _ _ => ?_
      refine (inBounds_field (by omega)).bind fun _ _ => (inBounds_stol _).bind fun _ _ => ?_
      exact inBounds_ok _
  · exact inBounds_ok _

theorem createObjectRule_skips {l : List Text} (h : ¬ ObjectTokens l) :
    createObjectRule l = .ok none ↔ ObjectHarmless l := by
  by_cases htwo : 2 ≤ l.length
  · have hshort : operationOf l = .createObject ∧ l.length < 10 := by
      by_contra hnot
      exact h ⟨htwo, fun hop => by_contra fun hlt => hnot ⟨hop, by omega⟩⟩
    have hcount : toInt32 l.length = l.length := toInt32_natCast (by omega)
    rw [createObjectRule, field_eq htwo]
    show (if operationOf l = .createObject then _ else _) = _ ↔ _
    rw [if_pos hshort.1]
    by_cases height : l.length < 8
    · rw [if_pos (by rw [hcount, createObjectRulesMinElements]; omega)]
      refine iff_of_true rfl ⟨htwo, ?_⟩
      omega
    · rw [if_neg (by rw [hcount, createObjectRulesMinElements]; omega)]
      refine iff_of_false ?_ ?_
      · -- Past the check the line is converted, or the conversion fails.
        iterate 16 refine converts_bind fun _ => ?_
        exact converts_some _
      · rintro ⟨_, hnot⟩
        exact hnot ⟨hshort.1, by omega⟩
  · refine iff_of_false ?_ fun hharmless => htwo hharmless.1
    rw [createObjectRule, field_missing (by omega)]
    intro hskip
    cases hskip

/-- The end of `enforcementRule`, once the operation is known and its values are read. -/
def ruleOfValues (l : List Text) (operationType : Int) (configurations : List Int) :
    Except ParseFault (Option EnforcementRule) := do
  let ruleId ← stoull (← field l 0)
  let channelId ← stol (← field l 1)
  let objectId ← stol (← field l 2)
  pure (some
    { ruleId := ruleId
      channelId := channelId
      enforcementObjectId := objectId
      operationType := operationType
      configurations := configurations })

theorem inBounds_ruleOfValues {l : List Text} (h : 5 ≤ l.length) (operationType : Int)
    (configurations : List Int) : InBounds (ruleOfValues l operationType configurations) := by
  refine (inBounds_field (by omega)).bind fun _ _ => (inBounds_stoull _).bind fun _ _ => ?_
  refine (inBounds_field (by omega)).bind fun _ _ => (inBounds_stol _).bind fun _ _ => ?_
  refine (inBounds_field (by omega)).bind fun _ _ => (inBounds_stol _).bind fun _ _ => ?_
  exact inBounds_ok _

theorem inBounds_enforcementRule {l : List Text} (h : EnforcementTokens l) :
    InBounds (enforcementRule l) := by
  obtain ⟨hfive, hseven, hsix⟩ := h
  rw [enforcementRule, field_eq (by omega), field_eq (by omega)]
  show InBounds (if enforcementOf l = 1 then _ else if enforcementOf l = 2 then _ else _)
  split
  · rename_i hinit
    have hlength := hseven hinit
    refine (inBounds_field (by omega)).bind fun _ _ => (inBounds_stol _).bind fun _ _ => ?_
    refine (inBounds_field (by omega)).bind fun _ _ => (inBounds_stol _).bind fun _ _ => ?_
    exact inBounds_ruleOfValues hfive _ _
  · split
    · rename_i hrate
      have hlength := hsix hrate
      refine (inBounds_field (by omega)).bind fun _ _ => (inBounds_stol _).bind fun _ _ => ?_
      exact inBounds_ruleOfValues hfive _ _
    · exact inBounds_ruleOfValues hfive _ _

theorem converts_ruleOfValues (l : List Text) (operationType : Int) (configurations : List Int) :
    Converts (ruleOfValues l operationType configurations) := by
  refine converts_bind fun _ => converts_bind fun _ => converts_bind fun _ => ?_
  refine converts_bind fun _ => converts_bind fun _ => converts_bind fun _ => ?_
  exact converts_some _

/-- No enforcement line is skipped. -/
theorem converts_enforcementRule (l : List Text) : Converts (enforcementRule l) := by
  refine converts_bind fun objectType => converts_bind fun operation => ?_
  show Converts (if _ = (1 : Int) then _ else if _ = (2 : Int) then _ else _)
  split
  · refine converts_bind fun _ => converts_bind fun _ => converts_bind fun _ => ?_
    exact converts_bind fun _ => converts_ruleOfValues l _ _
  · split
    · exact converts_bind fun _ => converts_bind fun _ => converts_ruleOfValues l _ _
    · exact converts_ruleOfValues l _ _

/-- For any staged lines and any limit: the getters of channel rules and object rules read past the
end of a line exactly when they get to a line without an operation or, for objects, to one with
eight or nine tokens; the getter of enforcement rules does when it gets to any line that is too
short. -/
theorem extraction_in_bounds_iff (stagedRules : List (List Text)) (n : Int) :
    (Extracts getCreateChannelRules createChannelRule ChannelTokens stagedRules n ↔
      ∀ l ∈ visited createChannelRule (limit n) 0 stagedRules, 2 ≤ l.length) ∧
    (Extracts getCreateObjectRules createObjectRule ObjectTokens stagedRules n ↔
      ∀ l ∈ visited createObjectRule (limit n) 0 stagedRules, ObjectHarmless l) ∧
    (Extracts getEnforcementRules enforcementRule EnforcementTokens stagedRules n ↔
      ∀ l ∈ visited enforcementRule (limit n) 0 stagedRules, EnforcementTokens l) := by
  refine ⟨?_, ?_, ?_⟩
  · refine extracts_iff (fun _ => rfl) (fun l h => ⟨inBounds_createChannelRule h, h.1⟩) ?_
    exact fun l h => createChannelRule_skips h
  · refine extracts_iff (fun _ => rfl) (fun l h => ⟨inBounds_createObjectRule h, h.1, ?_⟩) ?_
    · rintro ⟨hop, hlength⟩
      have hten := h.2 hop
      omega
    · exact fun l h => createObjectRule_skips h
  · refine extracts_iff (fun _ => rfl) (fun l h => ⟨inBounds_enforcementRule h, h⟩) ?_
    exact fun l h => iff_of_false (converts_enforcementRule l) h

/-- A blank line, an object line of eight tokens and an enforcement line without its value: each is
the whole file. -/
theorem missing_fields_read :
    getCreateChannelRules (readRulesFromFile (some (text "\n"))) (-1) = .error .outOfBounds ∧
    getCreateObjectRules
        (readRulesFromFile (some (text "2 create_object 5 7 general no_op no_op noop\n"))) (-1) =
      .error .outOfBounds ∧
    getEnforcementRules (readRulesFromFile (some (text "1 5 7 drl rate\n"))) (-1) =
      .error .outOfBounds := by
  decide +kernel

end RulesParser

end Paio
