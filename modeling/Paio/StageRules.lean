import Paio.ControlMessages
import Paio.Keywords
import Paio.RuleExtraction
import Paio.RulePrinting

/-!
# Paio.StageRules

The rules that set up a stage, in the two forms in which they can be given to it: a line of a rules
file, with decimal numbers and keywords, and a structure of the control plane, with integers of
fixed width. A rule here has the values that both forms can carry.

The parser makes of the line the rule that the agent makes of the structure.
-/

namespace Paio

open RulesParser StructLayout

/-! ## Numbers -/

/-- The `long` that has the bits of an unsigned number. -/
def asLong (x : UInt64) : Int := signed 64 x.toNat

theorem isSigned_asLong (x : UInt64) : IsSigned 64 (asLong x) := by
  have hlt := x.toNat_lt
  unfold IsSigned asLong signed
  split <;> omega

theorem ofInt_asLong (x : UInt64) : UInt64.ofInt (asLong x) = x := by
  have hlt := x.toNat_lt
  have hmod : ((asLong x % 2 ^ 64).toNat) = x.toNat := by
    unfold asLong signed
    split <;> omega
  rw [UInt64.ofInt, hmod, UInt64.ofNat_toNat]

/-- A token that is written as it is and read back as one word. -/
def Plain (token : Text) : Prop :=
  token ≠ [] ∧ ∀ c ∈ token, c ≠ 0 ∧ c ≠ 10 ∧ isSpaceByte c = false

/-- Bytes above the space. -/
def graphic : Text → Bool
  | [] => false
  | c :: rest => (c :: rest).all fun c => Nat.blt 32 c.toNat

theorem plain_of_graphic {token : Text} (h : graphic token = true) : Plain token := by
  cases token with
  | nil => cases h
  | cons c rest =>
    refine ⟨List.cons_ne_nil c rest, fun d hd => ?_⟩
    have hlt : 32 < d.toNat := by simpa using List.all_eq_true.mp h d hd
    refine ⟨?_, ?_, decide_eq_false ?_⟩ <;> rintro rfl <;> exact absurd hlt (by decide)

theorem plain_digit {c : UInt8} (h : isDigit c = true) : c ≠ 0 ∧ c ≠ 10 ∧ isSpaceByte c = false := by
  refine ⟨?_, ?_, ?_⟩
  · rintro rfl
    cases h
  · rintro rfl
    cases h
  · exact decide_eq_false (not_isSpace_of_isDigit h).2.2.2

theorem plain_natText (n : Nat) : Plain (natText n) :=
  ⟨natText_ne_nil n, fun _ hc => plain_digit (mem_natText hc)⟩

theorem plain_decimalText (x : Int) : Plain (decimalText x) := by
  refine ⟨(word_decimalText x).1, fun c hc => ?_⟩
  unfold decimalText at hc
  split at hc
  · rcases List.mem_cons.mp hc with rfl | hc
    · decide
    · exact plain_digit (mem_natText hc)
  · exact plain_digit (mem_natText hc)

/-! ## Keywords -/

/-- A context of the rules files with two of its definitions. -/
structure ContextKeywords where
  context : String × ContextDefinitions
  operationType : String × Int
  operationContext : String × Int
  context_mem : context ∈ contextTables
  operationType_mem : operationType ∈ context.2.definitions
  operationContext_mem : operationContext ∈ context.2.definitions

theorem plain_keywords : ∀ c ∈ contextTables,
    Plain (text c.1) ∧ ∀ d ∈ c.2.definitions, Plain (text d.1) := by
  have hgraphic : ∀ c ∈ contextTables, graphic (text c.1) = true ∧
      (c.2.definitions.all fun d => graphic (text d.1)) = true := by
    decide +kernel
  intro c hc
  refine ⟨plain_of_graphic (hgraphic c hc).1, fun d hd => ?_⟩
  exact plain_of_graphic (List.all_eq_true.mp (hgraphic c hc).2 d hd)

theorem definition_values : ∀ c ∈ contextTables, ∀ d ∈ c.2.definitions, 0 ≤ d.2 ∧ d.2 < 2 ^ 32 := by
  decide +kernel

theorem context_value_fits : ∀ c ∈ contextTables,
    IsSigned 32 (convertContextTypeDefinition (text c.1)) := by
  decide

/-- A keyword of a context is converted into its value. -/
theorem convert_definition {c : String × ContextDefinitions} (hc : c ∈ contextTables)
    {d : String × Int} (hd : d ∈ c.2.definitions) :
    convertDifferentiationDefinitions (text c.1) (text d.1) = .ok d.2 := by
  rw [convertDifferentiationDefinitions_select hc rfl, convertDefinitions_eq,
    HashSwitch.select_eq_some (distinct_definitions c hc).1 hd rfl]
  rfl

/-- The value of a definition in a member of the structure. -/
theorem toNat_definition {c : String × ContextDefinitions} (hc : c ∈ contextTables)
    {d : String × Int} (hd : d ∈ c.2.definitions) : ((UInt32.ofInt d.2).toNat : Int) = d.2 := by
  obtain ⟨hnonneg, hlt⟩ := definition_values c hc d hd
  rw [UInt32.ofInt, UInt32.toNat_ofNat']
  omega

def ContextKeywords.contextValue (k : ContextKeywords) : Int :=
  convertContextTypeDefinition (text k.context.1)

def EnforcementObjectType.keyword : EnforcementObjectType → String
  | .drl => "drl"
  | .noop => "noop"

theorem convertObjectType_keyword (type : EnforcementObjectType) :
    convertObjectType (text type.keyword) = type := by
  cases type <;> decide

/-! ## Reading tokens -/

theorem bind_ok {α β : Type} {x : Except ParseFault α} {f : α → Except ParseFault β} {a : α} {b : β}
    (hx : x = .ok a) (hf : f a = .ok b) : x >>= f = .ok b :=
  bind_eq_ok.mpr ⟨a, hx, hf⟩

theorem field_bind {β : Type} {l : List Text} {i : Nat} {token : Text}
    {f : Text → Except ParseFault β} {b : β} (hi : l[i]? = some token) (hf : f token = .ok b) :
    field l i >>= f = .ok b := by
  refine bind_ok ?_ hf
  rw [field, hi]

/-! ## Rules -/

/-- A rule that creates a channel. -/
structure ChannelRule where
  ruleId : UInt64
  channelId : Int
  workflow : UInt32
  keywords : ContextKeywords
  fits : IsSigned 64 channelId

/-- A rule that creates an object in a channel. -/
structure ObjectRule where
  ruleId : UInt64
  channelId : Int
  objectId : Int
  keywords : ContextKeywords
  objectType : EnforcementObjectType
  first : Int
  second : Int
  fits : IsSigned 64 channelId ∧ IsSigned 64 objectId ∧ IsSigned 64 first ∧ IsSigned 64 second

namespace ChannelRule

variable (r : ChannelRule)

/-- `<rule> create_channel <channel> <context> <workflow> <operation-type> <operation-context>`. -/
def tokens : List Text :=
  [natText r.ruleId.toNat, text "create_channel", decimalText r.channelId, text r.keywords.context.1,
    natText r.workflow.toNat, text r.keywords.operationType.1, text r.keywords.operationContext.1]

def raw : HousekeepingCreateChannelRaw where
  ruleId := r.ruleId
  channelId := r.channelId
  contextDefinition := r.keywords.contextValue
  workflowId := r.workflow
  operationType := UInt32.ofInt r.keywords.operationType.2
  operationContext := UInt32.ofInt r.keywords.operationContext.2

def rule : HousekeepingRule where
  ruleId := r.ruleId
  ruleType := .createChannel
  channelId := r.channelId
  enforcementObjectId := -1
  properties := [r.keywords.contextValue, r.workflow.toNat, r.keywords.operationType.2,
    r.keywords.operationContext.2]

theorem raw_fits : HousekeepingCreateChannelRaw.layout.fits r.raw :=
  ⟨r.fits, context_value_fits _ r.keywords.context_mem⟩

theorem raw_rule : r.raw.rule = r.rule := by
  have htype := toNat_definition r.keywords.context_mem r.keywords.operationType_mem
  have hcontext := toNat_definition r.keywords.context_mem r.keywords.operationContext_mem
  simp only [HousekeepingCreateChannelRaw.rule, raw, rule, htype, hcontext]

theorem createChannelRule_tokens : createChannelRule r.tokens = .ok (some r.rule) := by
  have hoperation : convertHousekeepingOperation (text "create_channel") = .createChannel := by
    decide
  have hlength : ¬ toInt32 7 < createChannelRulesMinElements := by decide
  have htype := convert_definition r.keywords.context_mem r.keywords.operationType_mem
  have hcontext := convert_definition r.keywords.context_mem r.keywords.operationContext_mem
  have hworkflow : stol (natText r.workflow.toNat) = .ok (r.workflow.toNat : Int) := by
    have hlt := r.workflow.toNat_lt
    have hnat : decimalText (r.workflow.toNat : Int) = natText r.workflow.toNat := by
      rw [decimalText, if_neg (by omega), Int.natAbs_natCast]
    rw [← hnat]
    exact stol_decimalText (by omega)
  refine field_bind rfl ?_
  rw [if_pos hoperation]
  refine (if_neg hlength).trans ?_
  -- context, workflow, the two definitions, rule and channel
  refine field_bind rfl (field_bind rfl (bind_ok hworkflow ?_))
  refine field_bind rfl (bind_ok htype (field_bind rfl (bind_ok hcontext ?_)))
  refine field_bind rfl (bind_ok (stoull_natText r.ruleId) ?_)
  exact field_bind rfl (bind_ok (stol_decimalText r.fits) rfl)

theorem createObjectRule_tokens : createObjectRule r.tokens = .ok none := by
  have hoperation : convertHousekeepingOperation (text "create_channel") ≠ .createObject := by
    decide
  simp [createObjectRule, tokens, field, hoperation, Bind.bind, Except.bind, Pure.pure, Except.pure]

theorem printable_tokens : Printable r.tokens := by
  obtain ⟨hcontext, hdefinitions⟩ := plain_keywords _ r.keywords.context_mem
  have htype := hdefinitions _ r.keywords.operationType_mem
  have hdefinition := hdefinitions _ r.keywords.operationContext_mem
  have hoperation : Plain (text "create_channel") := plain_of_graphic (by decide)
  simp only [Printable, tokens, List.mem_cons, List.not_mem_nil, or_false, forall_eq_or_imp,
    forall_eq]
  exact ⟨plain_natText _, hoperation, plain_decimalText _, hcontext, plain_natText _, htype,
    hdefinition⟩

end ChannelRule

namespace ObjectRule

variable (r : ObjectRule)

/-- `<rule> create_object <channel> <object> <context> <operation-type> <operation-context> <type>
<first> <second>`. -/
def tokens : List Text :=
  [natText r.ruleId.toNat, text "create_object", decimalText r.channelId, decimalText r.objectId,
    text r.keywords.context.1, text r.keywords.operationType.1, text r.keywords.operationContext.1,
    text r.objectType.keyword, decimalText r.first, decimalText r.second]

def raw : HousekeepingCreateObjectRaw where
  ruleId := asLong r.ruleId
  channelId := r.channelId
  enforcementObjectId := r.objectId
  contextDefinition := r.keywords.contextValue
  operationType := UInt32.ofInt r.keywords.operationType.2
  operationContext := UInt32.ofInt r.keywords.operationContext.2
  enforcementObjectType := r.objectType.toLong
  propertyFirst := r.first
  propertySecond := r.second

def rule : HousekeepingRule where
  ruleId := r.ruleId
  ruleType := .createObject
  channelId := r.channelId
  enforcementObjectId := r.objectId
  properties := [r.keywords.contextValue, r.keywords.operationType.2, r.keywords.operationContext.2,
    r.objectType.toLong, r.first, r.second]

theorem raw_fits : HousekeepingCreateObjectRaw.layout.fits r.raw := by
  have htype : IsSigned 64 r.objectType.toLong := by cases r.objectType <;> decide
  exact ⟨isSigned_asLong r.ruleId, r.fits.1, r.fits.2.1,
    context_value_fits _ r.keywords.context_mem, htype, r.fits.2.2.1, r.fits.2.2.2⟩

theorem raw_rule : r.raw.rule = r.rule := by
  have htype := toNat_definition r.keywords.context_mem r.keywords.operationType_mem
  have hcontext := toNat_definition r.keywords.context_mem r.keywords.operationContext_mem
  simp only [HousekeepingCreateObjectRaw.rule, raw, rule, htype, hcontext, ofInt_asLong]

theorem createObjectRule_tokens : createObjectRule r.tokens = .ok (some r.rule) := by
  have hoperation : convertHousekeepingOperation (text "create_object") = .createObject := by
    decide
  have hlength : ¬ toInt32 10 < createObjectRulesMinElements := by decide
  have htype := convert_definition r.keywords.context_mem r.keywords.operationType_mem
  have hcontext := convert_definition r.keywords.context_mem r.keywords.operationContext_mem
  have hrule : r.rule.properties = [r.keywords.contextValue, r.keywords.operationType.2,
      r.keywords.operationContext.2,
      (convertObjectType (text r.objectType.keyword)).toLong, r.first, r.second] := by
    rw [convertObjectType_keyword]
    rfl
  refine field_bind rfl ?_
  rw [if_pos hoperation]
  refine (if_neg hlength).trans ?_
  -- context, the two definitions, type, the two values, rule, channel and object
  refine field_bind rfl (field_bind rfl (bind_ok htype (field_bind rfl (bind_ok hcontext ?_))))
  refine field_bind rfl (field_bind rfl (bind_ok (stol_decimalText r.fits.2.2.1) ?_))
  refine field_bind rfl (bind_ok (stol_decimalText r.fits.2.2.2) ?_)
  refine field_bind rfl (bind_ok (stoull_natText r.ruleId) ?_)
  refine field_bind rfl (bind_ok (stol_decimalText r.fits.1) ?_)
  refine field_bind rfl (bind_ok (stol_decimalText r.fits.2.1) ?_)
  simp only [ContextKeywords.contextValue] at hrule
  rw [← hrule]
  rfl

theorem createChannelRule_tokens : createChannelRule r.tokens = .ok none := by
  have hoperation : convertHousekeepingOperation (text "create_object") ≠ .createChannel := by
    decide
  simp [createChannelRule, tokens, field, hoperation, Bind.bind, Except.bind, Pure.pure,
    Except.pure]

theorem printable_tokens : Printable r.tokens := by
  obtain ⟨hcontext, hdefinitions⟩ := plain_keywords _ r.keywords.context_mem
  have htype := hdefinitions _ r.keywords.operationType_mem
  have hdefinition := hdefinitions _ r.keywords.operationContext_mem
  have hoperation : Plain (text "create_object") := plain_of_graphic (by decide)
  have hobjectType : Plain (text r.objectType.keyword) :=
    plain_of_graphic (by cases r.objectType <;> decide)
  simp only [Printable, tokens, List.mem_cons, List.not_mem_nil, or_false, forall_eq_or_imp,
    forall_eq]
  exact ⟨plain_natText _, hoperation, plain_decimalText _, plain_decimalText _, hcontext, htype,
    hdefinition, hobjectType, plain_decimalText _, plain_decimalText _⟩

end ObjectRule

/-- A rule that configures a rate limiter: neither `refill`, whose values are lost in a line, nor a
value `-1`, which stands in the structure for a value that is not there. -/
structure LimiterRule where
  ruleId : UInt64
  supplied : SuppliedRule
  fits : ∀ x ∈ supplied.channelId :: supplied.objectId :: supplied.values, IsSigned 64 x
  written : supplied.operation ≠ .refill
  given : -1 ∉ supplied.values

namespace LimiterRule

variable (r : LimiterRule)

/-- `<rule> <channel> <object> drl <operation> <values...>`. -/
def tokens : List Text := (r.supplied.decimalTokens r.ruleId r.fits).all

def raw : EnforcementRuleRaw where
  ruleId := asLong r.ruleId
  channelId := r.supplied.channelId
  enforcementObjectId := r.supplied.objectId
  enforcementOperation := r.supplied.operation.toInt
  propertyFirst := r.supplied.values.getD 0 (-1)
  propertySecond := r.supplied.values.getD 1 (-1)

def rule : EnforcementRule where
  ruleId := r.ruleId
  channelId := r.supplied.channelId
  enforcementObjectId := r.supplied.objectId
  operationType := r.supplied.operation.toInt
  configurations := r.supplied.values

theorem length_values : r.supplied.values.length = 1 ∨ r.supplied.values.length = 2 := by
  have hlength := r.supplied.length_values
  cases hoperation : r.supplied.operation with
  | init => exact .inr (by rw [hlength, hoperation]; rfl)
  | rate => exact .inl (by rw [hlength, hoperation]; rfl)
  | refill => exact absurd hoperation r.written

theorem raw_fits : EnforcementRuleRaw.layout.fits r.raw := by
  have hvalue : ∀ i, IsSigned 64 (r.supplied.values.getD i (-1)) := by
    intro i
    rw [List.getD_eq_getElem?_getD]
    cases hx : r.supplied.values[i]? with
    | none => decide
    | some x =>
      exact r.fits x (List.mem_cons_of_mem _ (List.mem_cons_of_mem _ (List.mem_of_getElem? hx)))
  have hoperation : IsSigned 32 r.supplied.operation.toInt := by
    cases r.supplied.operation <;> decide
  exact ⟨isSigned_asLong r.ruleId, r.fits _ List.mem_cons_self,
    r.fits _ (List.mem_cons_of_mem _ List.mem_cons_self), hoperation, hvalue 0, hvalue 1,
    (by decide : IsSigned 64 (-1))⟩

theorem ofRaw_raw : EnforcementRule.ofRaw r.raw = r.rule := by
  have hgiven := r.given
  have hvalues : (EnforcementRule.ofRaw r.raw).configurations = r.supplied.values := by
    rw [configurations_ofRaw]
    rcases r.length_values with hlength | hlength
    · obtain ⟨a, ha⟩ := List.length_eq_one_iff.mp hlength
      rw [ha] at hgiven
      simp only [List.mem_singleton, eq_comm] at hgiven
      simp [raw, ha, hgiven]
    · obtain ⟨a, b, hab⟩ := List.length_eq_two.mp hlength
      rw [hab] at hgiven
      simp only [List.mem_cons, List.not_mem_nil, or_false, not_or, eq_comm] at hgiven
      simp [raw, hab, hgiven.1, hgiven.2]
  have hruleId : (EnforcementRule.ofRaw r.raw).ruleId = r.ruleId := ofInt_asLong r.ruleId
  rw [rule, ← hvalues, ← hruleId]
  rfl

theorem enforcementRule_tokens : enforcementRule r.tokens = .ok (some r.rule) := by
  rw [tokens, RulesParser.enforcementRule_tokens, takenValues, if_neg r.written]
  rfl

theorem printable_tokens : Printable r.tokens := by
  have hdrl : Plain (text "drl") := plain_of_graphic (by decide)
  have hkeyword : Plain (text r.supplied.operation.keyword) :=
    plain_of_graphic (by cases r.supplied.operation <;> decide)
  have hvalues : ∀ token ∈ r.supplied.values.map decimalText, Plain token := by
    intro token htoken
    obtain ⟨x, _, rfl⟩ := List.mem_map.mp htoken
    exact plain_decimalText x
  simp only [Printable, tokens, SuppliedRule.Tokens.all, SuppliedRule.decimalTokens, List.mem_cons,
    forall_eq_or_imp]
  exact ⟨plain_natText _, plain_decimalText _, plain_decimalText _, hdrl, hkeyword, hvalues⟩

end LimiterRule

end Paio
