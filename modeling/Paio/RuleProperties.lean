import Paio.Keywords
import Paio.RuleExtraction

/-!
# Paio.RuleProperties

The properties of rules that come from a file. The context type of a line is converted three times,
by itself and with each of the two definitions. A definition that the context lacks throws; a
context type that is none gives `-1` everywhere and throws nowhere, so the line becomes a rule with
`-1` for its context and for both classifiers. `rules_well_formed_iff` says that this is the only
way to such a rule.
-/

namespace Paio

/-- `static_cast<long>` of a `ContextType`. -/
def ContextType.toLong : ContextType → Int
  | .paioGeneral => 0
  | .posix => 1
  | .posixMeta => 2
  | .lsmKvsSimple => 3
  | .lsmKvsDetailed => 4
  | .kvs => 5

/-- The enumerators of the definitions of a context are the numbers from `0` up to its size. -/
def ContextType.Defines (contextType : ContextType) (value : Int) : Prop :=
  0 ≤ value ∧ value < contextType.statsSize

instance (contextType : ContextType) : DecidablePred contextType.Defines :=
  fun _ => inferInstanceAs (Decidable (_ ∧ _))

namespace RulesParser

/-! ## Context types and definitions -/

/-- A context type is recognised. -/
def NamesContext (contextType : Text) : Prop :=
  ∃ c ∈ contextTables, hash (text c.1) = hash contextType

/-- A definition is recognised in its context. -/
def NamesDefinition (contextType definition : Text) : Prop :=
  ∃ c ∈ contextTables, hash (text c.1) = hash contextType ∧
    ∃ d ∈ c.2.definitions, hash (text d.1) = hash definition

/-- The two tables of context types agree. -/
theorem contextTables_defined : ∀ c ∈ contextTables, ∃ t : ContextType,
    (c.1, t.toLong) ∈ contextKeywords ∧ ∀ d ∈ c.2.definitions, t.Defines d.2 := by
  intro c hc
  simp only [contextTables, List.mem_cons, List.not_mem_nil, or_false] at hc
  obtain rfl | rfl | rfl | rfl | rfl | rfl := hc
  · exact ⟨.paioGeneral, by decide, by decide⟩
  · exact ⟨.posix, by decide, by decide⟩
  · exact ⟨.posixMeta, by decide, by decide⟩
  · exact ⟨.lsmKvsSimple, by decide, by decide⟩
  · exact ⟨.lsmKvsDetailed, by decide, by decide⟩
  · exact ⟨.kvs, by decide, by decide⟩

/-- A context type that is recognised is one of the enumerators, and its definitions are those of
this context. -/
theorem convert_of_names {contextType : Text} (h : NamesContext contextType) :
    ∃ t : ContextType, convertContextTypeDefinition contextType = t.toLong ∧
      ∀ definition v, convertDifferentiationDefinitions contextType definition = .ok v →
        t.Defines v ∧ NamesDefinition contextType definition := by
  obtain ⟨c, hc, hh⟩ := h
  obtain ⟨t, ht, hdefines⟩ := contextTables_defined c hc
  refine ⟨t, ?_, ?_⟩
  · show (HashSwitch.select text hash contextKeywords contextType).getD (-1) = _
    rw [HashSwitch.select_eq_some distinct_contextKeywords.hashes ht hh]
    rfl
  · intro definition v hv
    rw [convertDifferentiationDefinitions_select hc hh, convertDefinitions_eq] at hv
    cases hs : HashSwitch.select text hash c.2.definitions definition with
    | none =>
      rw [hs] at hv
      cases hv
    | some w =>
      obtain ⟨d, hd, hhd, rfl⟩ := HashSwitch.exists_of_select hs
      rw [hs] at hv
      cases hv
      exact ⟨hdefines d hd, c, hc, hh, d, hd, hhd⟩

/-- A context type that is not recognised is `-1`. -/
theorem convert_of_not_names {contextType : Text} (h : ¬ NamesContext contextType) :
    convertContextTypeDefinition contextType = -1 := by
  have hnone : ∀ k ∈ contextKeywords, hash (text k.1) ≠ hash contextType := by
    intro k hk hh
    have hkey : k.1 ∈ contextTables.map Prod.fst := List.mem_map_of_mem (f := Prod.fst) hk
    obtain ⟨c, hc, hck⟩ := List.mem_map.mp hkey
    exact h ⟨c, hc, by rw [hck]; exact hh⟩
  show (HashSwitch.select text hash contextKeywords contextType).getD (-1) = _
  rw [HashSwitch.select_eq_none hnone]
  rfl

/-! ## The loop -/

section Loop

variable {ρ : Type} {convert : List Text → Except ParseFault (Option ρ)}
  {totalRules rulesPassed : Int} {stagedRules : List (List Text)} {rules : List ρ}

/-- When the loop comes back, no line that it got to has failed, and the rules are those of these
lines. -/
theorem collectRules_ok (h : collectRules convert totalRules rulesPassed stagedRules = .ok rules) :
    (∀ l ∈ visited convert totalRules rulesPassed stagedRules, ∃ o, convert l = .ok o) ∧
      rules = rulesOf convert (visited convert totalRules rulesPassed stagedRules) := by
  induction stagedRules generalizing rulesPassed rules with
  | nil =>
    cases h
    exact ⟨by simp [visited], rfl⟩
  | cons stagedRule rest ih =>
    rw [collectRules] at h
    cases hc : convert stagedRule with
    | error f =>
      rw [hc] at h
      cases h
    | ok o =>
      rw [visited]
      simp only [hc] at h ⊢
      cases o with
      | none =>
        obtain ⟨hok, hrules⟩ := ih h
        refine ⟨List.forall_mem_cons.mpr ⟨⟨none, hc⟩, hok⟩, ?_⟩
        simpa [rulesOf, hc] using hrules
      | some rule =>
        simp only at h ⊢
        by_cases hlast : rulesPassed + 1 = totalRules
        · rw [if_pos hlast] at h ⊢
          cases h
          exact ⟨List.forall_mem_singleton.mpr ⟨some rule, hc⟩, by simp [rulesOf, hc]⟩
        · rw [if_neg hlast] at h ⊢
          cases hrest : collectRules convert totalRules (rulesPassed + 1) rest with
          | error f =>
            rw [hrest] at h
            cases h
          | ok rules' =>
            rw [hrest] at h
            cases h
            obtain ⟨hok, hrules⟩ := ih hrest
            refine ⟨List.forall_mem_cons.mpr ⟨⟨some rule, hc⟩, hok⟩, ?_⟩
            simpa [rulesOf, hc] using hrules

theorem mem_rulesOf {lines : List (List Text)} {rule : ρ} :
    rule ∈ rulesOf convert lines ↔ ∃ l ∈ lines, convert l = .ok (some rule) := by
  simp only [rulesOf, List.mem_filterMap]
  constructor
  · rintro ⟨l, hl, hr⟩
    cases hc : convert l with
    | error f =>
      rw [hc] at hr
      cases hr
    | ok o =>
      rw [hc] at hr
      change o = some rule at hr
      exact ⟨l, hl, by rw [hc, hr]⟩
  · rintro ⟨l, hl, hr⟩
    exact ⟨l, hl, by rw [hr]⟩

end Loop

/-! ## The rule of a line -/

theorem field_ok {l : List Text} {i : Nat} {token : Text} (h : field l i = .ok token) :
    l.getD i [] = token := by
  unfold field at h
  split at h
  · rename_i hi
    cases h
    rw [List.getD_eq_getElem?_getD, hi]
    rfl
  · cases h

/-- A context type and two of its definitions. -/
def Defined (contextType operationType operationContext : Int) : Prop :=
  ∃ t : ContextType,
    contextType = t.toLong ∧ t.Defines operationType ∧ t.Defines operationContext

def ChannelWellFormed (rule : HousekeepingRule) : Prop :=
  ∃ contextType workflow operationType operationContext,
    rule.properties = [contextType, workflow, operationType, operationContext] ∧
      Defined contextType operationType operationContext

def ObjectWellFormed (rule : HousekeepingRule) : Prop :=
  ∃ contextType operationType operationContext objectType first second,
    rule.properties =
        [contextType, operationType, operationContext, objectType, first, second] ∧
      Defined contextType operationType operationContext

/-- The line is a complete rule of the operation, as the getters check it. -/
def IsRule (operation : HousekeepingOperation) (minElements : Int) (l : List Text) : Prop :=
  operationOf l = operation ∧ minElements ≤ toInt32 l.length

/-- How a getter makes rules: only of complete lines of its operation, always of these if it comes
back, and then the two definitions were converted and the rule is well formed exactly when the
context type is recognised. -/
structure Makes (convert : List Text → Except ParseFault (Option HousekeepingRule))
    (operation : HousekeepingOperation) (minElements : Int) (contextAt : Nat)
    (WellFormed : HousekeepingRule → Prop) : Prop where
  isRule : ∀ {l rule}, convert l = .ok (some rule) → IsRule operation minElements l
  converts : ∀ {l}, IsRule operation minElements l → convert l ≠ .ok none
  definitions : ∀ {l rule}, convert l = .ok (some rule) →
    (∃ v, convertDifferentiationDefinitions (l.getD contextAt []) (l.getD 5 []) = .ok v) ∧
    ∃ v, convertDifferentiationDefinitions (l.getD contextAt []) (l.getD 6 []) = .ok v
  wellFormed_iff : ∀ {l rule}, convert l = .ok (some rule) →
    (WellFormed rule ↔ NamesContext (l.getD contextAt []))

theorem toLong_ne_neg_one (t : ContextType) : t.toLong ≠ -1 := by
  cases t <;> decide

/-- What the three conversions of a line give fits together exactly when the context type is
recognised. -/
theorem defined_iff {contextType typeToken contextToken : Text}
    {operationType operationContext : Int}
    (htype : convertDifferentiationDefinitions contextType typeToken = .ok operationType)
    (hcontext : convertDifferentiationDefinitions contextType contextToken =
      .ok operationContext) :
    Defined (convertContextTypeDefinition contextType) operationType operationContext ↔
      NamesContext contextType := by
  constructor
  · rintro ⟨t, ht, -, -⟩
    by_contra hnot
    rw [convert_of_not_names hnot] at ht
    exact toLong_ne_neg_one t ht.symm
  · intro hnames
    obtain ⟨t, ht, hdefinitions⟩ := convert_of_names hnames
    exact ⟨t, ht, (hdefinitions _ _ htype).1, (hdefinitions _ _ hcontext).1⟩

/-- What a channel line becomes. -/
theorem createChannelRule_some {l : List Text} {rule : HousekeepingRule}
    (h : createChannelRule l = .ok (some rule)) :
    IsRule .createChannel createChannelRulesMinElements l ∧
      ∃ workflow operationType operationContext,
        rule.properties = [convertContextTypeDefinition (l.getD 3 []), workflow, operationType,
          operationContext] ∧
        convertDifferentiationDefinitions (l.getD 3 []) (l.getD 5 []) = .ok operationType ∧
        convertDifferentiationDefinitions (l.getD 3 []) (l.getD 6 []) = .ok operationContext := by
  obtain ⟨operation, hoperation, h⟩ := bind_eq_ok.mp h
  obtain rfl := field_ok hoperation
  split at h
  · rename_i hop
    split at h
    · cases h
    · rename_i hlength
      obtain ⟨_, hcontextType, h⟩ := bind_eq_ok.mp h
      obtain rfl := field_ok hcontextType
      obtain ⟨_, _, h⟩ := bind_eq_ok.mp h
      obtain ⟨workflow, _, h⟩ := bind_eq_ok.mp h
      obtain ⟨_, htypeToken, h⟩ := bind_eq_ok.mp h
      obtain rfl := field_ok htypeToken
      obtain ⟨operationType, htype, h⟩ := bind_eq_ok.mp h
      obtain ⟨_, hcontextToken, h⟩ := bind_eq_ok.mp h
      obtain rfl := field_ok hcontextToken
      obtain ⟨operationContext, hcontext, h⟩ := bind_eq_ok.mp h
      obtain ⟨_, _, h⟩ := bind_eq_ok.mp h
      obtain ⟨_, _, h⟩ := bind_eq_ok.mp h
      obtain ⟨_, _, h⟩ := bind_eq_ok.mp h
      obtain ⟨_, _, h⟩ := bind_eq_ok.mp h
      cases h
      exact ⟨⟨hop, not_lt.mp hlength⟩, workflow, operationType, operationContext, rfl, htype,
        hcontext⟩
  · cases h

theorem createObjectRule_some {l : List Text} {rule : HousekeepingRule}
    (h : createObjectRule l = .ok (some rule)) :
    IsRule .createObject createObjectRulesMinElements l ∧
      ∃ operationType operationContext objectType first second,
        rule.properties = [convertContextTypeDefinition (l.getD 4 []), operationType,
          operationContext, objectType, first, second] ∧
        convertDifferentiationDefinitions (l.getD 4 []) (l.getD 5 []) = .ok operationType ∧
        convertDifferentiationDefinitions (l.getD 4 []) (l.getD 6 []) = .ok operationContext := by
  obtain ⟨operation, hoperation, h⟩ := bind_eq_ok.mp h
  obtain rfl := field_ok hoperation
  split at h
  · rename_i hop
    split at h
    · cases h
    · rename_i hlength
      obtain ⟨_, hcontextType, h⟩ := bind_eq_ok.mp h
      obtain rfl := field_ok hcontextType
      obtain ⟨_, htypeToken, h⟩ := bind_eq_ok.mp h
      obtain rfl := field_ok htypeToken
      obtain ⟨operationType, htype, h⟩ := bind_eq_ok.mp h
      obtain ⟨_, hcontextToken, h⟩ := bind_eq_ok.mp h
      obtain rfl := field_ok hcontextToken
      obtain ⟨operationContext, hcontext, h⟩ := bind_eq_ok.mp h
      obtain ⟨_, _, h⟩ := bind_eq_ok.mp h
      obtain ⟨_, _, h⟩ := bind_eq_ok.mp h
      obtain ⟨first, _, h⟩ := bind_eq_ok.mp h
      obtain ⟨_, _, h⟩ := bind_eq_ok.mp h
      obtain ⟨second, _, h⟩ := bind_eq_ok.mp h
      obtain ⟨_, _, h⟩ := bind_eq_ok.mp h
      obtain ⟨_, _, h⟩ := bind_eq_ok.mp h
      obtain ⟨_, _, h⟩ := bind_eq_ok.mp h
      obtain ⟨_, _, h⟩ := bind_eq_ok.mp h
      obtain ⟨_, _, h⟩ := bind_eq_ok.mp h
      obtain ⟨_, _, h⟩ := bind_eq_ok.mp h
      cases h
      exact ⟨⟨hop, not_lt.mp hlength⟩, operationType, operationContext, _, first, second, rfl,
        htype, hcontext⟩
  · cases h

theorem makes_createChannelRule :
    Makes createChannelRule .createChannel createChannelRulesMinElements 3 ChannelWellFormed where
  isRule h := (createChannelRule_some h).1
  definitions h := by
    obtain ⟨-, workflow, operationType, operationContext, -, htype, hcontext⟩ :=
      createChannelRule_some h
    exact ⟨⟨_, htype⟩, _, hcontext⟩
  wellFormed_iff h := by
    obtain ⟨-, workflow, operationType, operationContext, hproperties, htype, hcontext⟩ :=
      createChannelRule_some h
    rw [← defined_iff htype hcontext]
    simp [ChannelWellFormed, hproperties]
  converts {l} hrule := by
    by_cases htwo : 2 ≤ l.length
    · rw [createChannelRule, field_eq htwo]
      show (if operationOf l = .createChannel then _ else _) ≠ _
      rw [if_pos hrule.1, if_neg (not_lt.mpr hrule.2)]
      show Converts _
      iterate 11 refine converts_bind fun _ => ?_
      exact converts_some _
    · rw [createChannelRule, field_missing (by omega)]
      intro h
      cases h

theorem makes_createObjectRule :
    Makes createObjectRule .createObject createObjectRulesMinElements 4 ObjectWellFormed where
  isRule h := (createObjectRule_some h).1
  definitions h := by
    obtain ⟨-, operationType, operationContext, _, _, _, -, htype, hcontext⟩ :=
      createObjectRule_some h
    exact ⟨⟨_, htype⟩, _, hcontext⟩
  wellFormed_iff h := by
    obtain ⟨-, operationType, operationContext, _, _, _, hproperties, htype, hcontext⟩ :=
      createObjectRule_some h
    rw [← defined_iff htype hcontext]
    simp [ObjectWellFormed, hproperties]
  converts {l} hrule := by
    by_cases htwo : 2 ≤ l.length
    · rw [createObjectRule, field_eq htwo]
      show (if operationOf l = .createObject then _ else _) ≠ _
      rw [if_pos hrule.1, if_neg (not_lt.mpr hrule.2)]
      show Converts _
      iterate 16 refine converts_bind fun _ => ?_
      exact converts_some _
    · rw [createObjectRule, field_missing (by omega)]
      intro h
      cases h

/-! ## The rules of a file -/

/-- All rules are well formed, and no line that the loop got to makes a rule with a context type or
a definition that is not recognised. -/
structure WellFormedRules (convert : List Text → Except ParseFault (Option HousekeepingRule))
    (contextAt : Nat) (WellFormed : HousekeepingRule → Prop) (lines : List (List Text))
    (rules : List HousekeepingRule) : Prop where
  wellFormed : ∀ rule ∈ rules, WellFormed rule
  unknown : ∀ l ∈ lines,
    ¬ (NamesDefinition (l.getD contextAt []) (l.getD 5 []) ∧
        NamesDefinition (l.getD contextAt []) (l.getD 6 [])) → convert l = .ok none

theorem Makes.wellFormedRules_iff
    {convert : List Text → Except ParseFault (Option HousekeepingRule)}
    {operation : HousekeepingOperation} {minElements : Int} {contextAt : Nat}
    {WellFormed : HousekeepingRule → Prop}
    (hmakes : Makes convert operation minElements contextAt WellFormed)
    {stagedRules : List (List Text)} {n : Int} {rules : List HousekeepingRule}
    (h : collectRules convert (limit n) 0 stagedRules = .ok rules) :
    WellFormedRules convert contextAt WellFormed (visited convert (limit n) 0 stagedRules) rules ↔
      ∀ l ∈ visited convert (limit n) 0 stagedRules, IsRule operation minElements l →
        NamesContext (l.getD contextAt []) := by
  obtain ⟨hok, hrules⟩ := collectRules_ok h
  constructor
  · intro hwell l hl hrule
    obtain ⟨o, ho⟩ := hok l hl
    cases o with
    | none => exact absurd ho (hmakes.converts hrule)
    | some rule =>
      have hmem : rule ∈ rules := by
        rw [hrules]
        exact mem_rulesOf.mpr ⟨l, hl, ho⟩
      exact (hmakes.wellFormed_iff ho).mp (hwell.wellFormed rule hmem)
  · intro hnames
    refine ⟨?_, ?_⟩
    · intro rule hmem
      rw [hrules] at hmem
      obtain ⟨l, hl, hc⟩ := mem_rulesOf.mp hmem
      exact (hmakes.wellFormed_iff hc).mpr (hnames l hl (hmakes.isRule hc))
    · intro l hl hunknown
      obtain ⟨o, ho⟩ := hok l hl
      cases o with
      | none => exact ho
      | some rule =>
        obtain ⟨t, _, hdefinitions⟩ := convert_of_names (hnames l hl (hmakes.isRule ho))
        obtain ⟨⟨v, hv⟩, w, hw⟩ := hmakes.definitions ho
        exact absurd ⟨(hdefinitions _ v hv).2, (hdefinitions _ w hw).2⟩ hunknown

/-- When the extraction comes back, its rules are well formed exactly when every complete line of
its type that it got to has a context type that is recognised. -/
theorem rules_well_formed_iff (stagedRules : List (List Text)) (n : Int) :
    (∀ rules, getCreateChannelRules stagedRules n = .ok rules →
      (WellFormedRules createChannelRule 3 ChannelWellFormed
          (visited createChannelRule (limit n) 0 stagedRules) rules ↔
        ∀ l ∈ visited createChannelRule (limit n) 0 stagedRules,
          IsRule .createChannel createChannelRulesMinElements l → NamesContext (l.getD 3 []))) ∧
    (∀ rules, getCreateObjectRules stagedRules n = .ok rules →
      (WellFormedRules createObjectRule 4 ObjectWellFormed
          (visited createObjectRule (limit n) 0 stagedRules) rules ↔
        ∀ l ∈ visited createObjectRule (limit n) 0 stagedRules,
          IsRule .createObject createObjectRulesMinElements l → NamesContext (l.getD 4 []))) :=
  ⟨fun _ h => makes_createChannelRule.wellFormedRules_iff h,
    fun _ h => makes_createObjectRule.wellFormedRules_iff h⟩

/-- A file with a channel, an enforcement rule, and two objects, one of them in a context that does
not exist. -/
def mixedLines : List (List Text) :=
  [channelLine, refillLine, objectLine,
    [text "3", text "create_object", text "5", text "8", text "unheard", text "no_op", text "no_op",
      text "noop", text "0", text "0"]]

/-- The rules for channels are well formed, those for objects are not. -/
theorem rules_well_formed_iff_mixed :
    (∃ rules, getCreateChannelRules mixedLines (-1) = .ok rules ∧ rules.length = 1 ∧
      WellFormedRules createChannelRule 3 ChannelWellFormed
        (visited createChannelRule (limit (-1)) 0 mixedLines) rules) ∧
    ∃ rules, getCreateObjectRules mixedLines (-1) = .ok rules ∧ rules.length = 2 ∧
      ¬ WellFormedRules createObjectRule 4 ObjectWellFormed
        (visited createObjectRule (limit (-1)) 0 mixedLines) rules := by
  constructor
  · refine ⟨_, rfl, rfl, ((rules_well_formed_iff mixedLines (-1)).1 _ rfl).mpr ?_⟩
    simp only [IsRule, NamesContext]
    decide +kernel
  · refine ⟨_, rfl, rfl, mt ((rules_well_formed_iff mixedLines (-1)).2 _ rfl).mp ?_⟩
    simp only [IsRule, NamesContext]
    decide +kernel

/-- A context type that does not exist, in a line of a file: a rule with `-1` in three places. -/
theorem unknown_context_makes_rule :
    getCreateChannelRules
        (readRulesFromFile (some (text "1 create_channel 5 unheard 2 no_op no_op\n"))) (-1) =
      .ok [{ ruleId := 1, ruleType := .createChannel, channelId := 5, enforcementObjectId := -1,
             properties := [-1, 2, -1, -1] }] ∧
    getCreateObjectRules
        (readRulesFromFile (some (text "2 create_object 5 7 unheard no_op no_op noop 0 0\n"))) (-1) =
      .ok [{ ruleId := 2, ruleType := .createObject, channelId := 5, enforcementObjectId := 7,
             properties := [-1, -1, -1, 0, 0, 0] }] := by
  decide +kernel

end RulesParser

end Paio
