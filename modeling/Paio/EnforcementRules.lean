import Paio.ObjectIds
import Paio.RulesParser

/-!
# Paio.EnforcementRules

The way of an enforcement rule for a rate limiter from its source to `obj_configure`. There are two
encoders: a line of a rules file, which is parsed by position, and the structure of the control
plane (`EnforcementRuleRaw`), in which `-1` stands for a property that is not there. The decoder
indexes the configuration values without checks. `values_reach_iff` says for which rules it reads
the values that were supplied.
-/

namespace Paio

/-! ## The two sources -/

/-- The structure that the control plane sends. -/
structure EnforcementRuleRaw where
  ruleId : Int := 0
  channelId : Int := -1
  enforcementObjectId : Int := -1
  enforcementOperation : Int := 0
  propertyFirst : Int := -1
  propertySecond : Int := -1
  propertyThird : Int := -1
  deriving DecidableEq, Repr

/-- The constructor of `EnforcementRule` from the structure. -/
def EnforcementRule.ofRaw (raw : EnforcementRuleRaw) : EnforcementRule where
  ruleId := UInt64.ofInt raw.ruleId
  channelId := raw.channelId
  enforcementObjectId := raw.enforcementObjectId
  operationType := raw.enforcementOperation
  configurations :=
    (if raw.propertyFirst ≠ -1 then [raw.propertyFirst] else []) ++
    (if raw.propertySecond ≠ -1 then [raw.propertySecond] else []) ++
    (if raw.propertyThird ≠ -1 then [raw.propertyThird] else [])

def DRLConfiguration.keyword : DRLConfiguration → String
  | .init => "init"
  | .rate => "rate"
  | .refill => "refill"

/-- How many values a configuration takes. -/
def DRLConfiguration.arity : DRLConfiguration → Nat
  | .init => 2
  | .rate => 1
  | .refill => 1

/-- A rule for a rate limiter as its author means it. -/
structure SuppliedRule where
  channelId : Int
  objectId : Int
  operation : DRLConfiguration
  values : List Int
  length_values : values.length = operation.arity

/-- The tokens of a line that writes the rule, each number in any way that can be read back. -/
structure SuppliedRule.Tokens (r : SuppliedRule) where
  rule : Text
  channel : Text
  object : Text
  values : List Text
  ruleId : UInt64
  rule_eq : stoull rule = .ok ruleId
  channel_eq : stol channel = .ok r.channelId
  object_eq : stol object = .ok r.objectId
  values_eq : List.Forall₂ (fun token value => stol token = .ok value) values r.values
  words : ∀ token ∈ rule :: channel :: object :: values, token ≠ [] ∧ RulesParser.space ∉ token

/-- The tokens of the line, in order. -/
def SuppliedRule.Tokens.all {r : SuppliedRule} (t : r.Tokens) : List Text :=
  t.rule :: t.channel :: t.object :: text "drl" :: text r.operation.keyword :: t.values

/-- The line `<rule> <channel> <object> drl <operation> <values...>`. -/
def SuppliedRule.Tokens.line {r : SuppliedRule} (t : r.Tokens) : Text :=
  List.intercalate [RulesParser.space] t.all

/-- The structure carries the rule: its first properties are the values. -/
structure EnforcementRuleRaw.Carries (raw : EnforcementRuleRaw) (r : SuppliedRule) : Prop where
  channel : raw.channelId = r.channelId
  object : raw.enforcementObjectId = r.objectId
  operation : raw.enforcementOperation = r.operation.toInt
  values : [raw.propertyFirst, raw.propertySecond, raw.propertyThird].take r.operation.arity =
    r.values

/-! ## What the object should do -/

namespace DynamicRateLimiter

/-- The values that `obj_configure` reads, in the order in which it reads them. -/
def readValues (conf : Int) (confValues : List Int) : Except Fault (List Int) :=
  match DRLConfiguration.ofInt conf with
  | none => .ok []
  | some operation =>
    if operation.arity ≤ confValues.length then .ok (confValues.take operation.arity)
    else .error .outOfBounds

/-- The limiter after a configuration with as many values as it takes. -/
def configured (d : DynamicRateLimiter) : DRLConfiguration → List Int → DynamicRateLimiter
  | .init, refillPeriod :: rate :: _ => (d.initializeBucket refillPeriod rate).updateTokenBucketRate
  | .rate, rateValue :: _ => (d.configureRate rateValue).updateTokenBucketRate
  | .refill, window :: _ => (d.configureRefillWindow window).updateTokenBucketRate
  | _, _ => d

theorem ofInt_toInt (operation : DRLConfiguration) :
    DRLConfiguration.ofInt operation.toInt = some operation := by
  cases operation <;> rfl

/-- `obj_configure` depends on the values it reads only, and faults when one is missing. -/
theorem objConfigure_eq_read (d : DynamicRateLimiter) (operation : DRLConfiguration)
    (confValues : List Int) :
    d.objConfigure operation.toInt confValues =
      (readValues operation.toInt confValues).map fun read =>
        (d.configured operation read, .ok) := by
  cases operation with
  | init =>
    rcases confValues with _ | ⟨a, _ | ⟨b, rest⟩⟩ <;>
      simp [objConfigure, readValues, ofInt_toInt, DRLConfiguration.arity, Except.map, configured]
  | rate =>
    rcases confValues with _ | ⟨a, rest⟩ <;>
      simp [objConfigure, readValues, ofInt_toInt, DRLConfiguration.arity, Except.map, configured]
  | refill =>
    rcases confValues with _ | ⟨a, rest⟩ <;>
      simp [objConfigure, readValues, ofInt_toInt, DRLConfiguration.arity, Except.map, configured]

theorem readValues_eq_iff {operation : DRLConfiguration} {confValues values : List Int}
    (h : values.length = operation.arity) :
    readValues operation.toInt confValues = .ok values ↔
      confValues.take operation.arity = values := by
  rw [readValues, ofInt_toInt]
  simp only
  split
  · simp
  · rename_i hlen
    simp only [reduceCtorEq, false_iff]
    intro htake
    have hlength := congrArg List.length htake
    rw [List.length_take, h] at hlength
    omega

end DynamicRateLimiter

/-- The rate limiter `d` is the object with that identifier in the channel with that identifier. -/
structure Core.DrlAt (core : Core) (channelId objectId : Int) (channelToken objectToken : UInt32)
    (channel : ChannelDefault) (d : DynamicRateLimiter) : Prop where
  channelLink : core.channelIdToTokenLinkers.lookup channelId = some channelToken
  channelToken_ne : channelToken ≠ noToken
  selected : core.selectChannel channelToken = some channel
  objectLink : channel.objectIdToTokenLinkers.lookup objectId = some objectToken
  objectToken_ne : objectToken ≠ noToken
  object : channel.submissionQueue.selectEnforcementObject objectToken = some (.drl d)

/-- `Agent::employ_enforcement_rule`. -/
def Core.employ (core : Core) (rule : EnforcementRule) : Except Fault (Core × PStatus) :=
  core.employEnforcementRule rule.channelId rule.enforcementObjectId rule.operationType
    rule.configurations

/-- Employing the rule on an existing rate limiter reads exactly the supplied values, and configures
the limiter with them. -/
structure Reaches (rule : EnforcementRule) (r : SuppliedRule) : Prop where
  reads : DynamicRateLimiter.readValues rule.operationType rule.configurations = .ok r.values
  configures : ∀ core channelToken objectToken channel d,
    Core.DrlAt core r.channelId r.objectId channelToken objectToken channel d →
    core.employ rule =
      .ok (core.setChannel channelToken
        (channel.setObject objectToken (.drl (d.configured r.operation r.values))), .ok)

theorem Core.DrlAt.employEnforcementRule {core : Core} {channelId objectId : Int}
    {channelToken objectToken : UInt32} {channel : ChannelDefault} {d : DynamicRateLimiter}
    (h : core.DrlAt channelId objectId channelToken objectToken channel d)
    (ruleType : Int) (configurations : List Int) :
    core.employEnforcementRule channelId objectId ruleType configurations =
      (d.objConfigure ruleType configurations).map fun out =>
        (core.setChannel channelToken (channel.setObject objectToken (.drl out.1)), out.2) := by
  have hobject : channel.getEnforcementObjectDiffToken objectId = objectToken := by
    rw [ChannelDefault.getEnforcementObjectDiffToken, h.objectLink]
    rfl
  rw [Core.employEnforcementRule, onChannel_of_lookup h.channelLink h.channelToken_ne h.selected]
  simp only [ChannelDefault.configureEnforcementObject, hobject, if_neg h.objectToken_ne,
    SubmissionQueue.configureEnforcementObject, h.object, EnforcementObject.objConfigure]
  rcases d.objConfigure ruleType configurations with f | ⟨d', status⟩ <;> rfl

/-- A rule for the right object reaches it exactly when its first configurations are the values. -/
theorem reaches_iff {rule : EnforcementRule} {r : SuppliedRule}
    (hchannel : rule.channelId = r.channelId) (hobject : rule.enforcementObjectId = r.objectId)
    (hoperation : rule.operationType = r.operation.toInt) :
    Reaches rule r ↔ rule.configurations.take r.operation.arity = r.values := by
  constructor
  · intro h
    have hreads := h.reads
    rw [hoperation] at hreads
    exact (DynamicRateLimiter.readValues_eq_iff r.length_values).mp hreads
  · intro h
    have hreads := (DynamicRateLimiter.readValues_eq_iff r.length_values).mpr h
    refine ⟨by rw [hoperation]; exact hreads, ?_⟩
    intro core channelToken objectToken channel d hd
    rw [Core.employ, hchannel, hobject, hoperation, hd.employEnforcementRule,
      DynamicRateLimiter.objConfigure_eq_read, hreads]
    rfl

/-! ## The structure -/

/-- Dropping the entries that stand for nothing leaves the first `k` in place exactly when none of
them is one. -/
theorem take_filter_eq_iff (absent : Int) (l : List Int) (k : Nat) :
    (l.filter (· ≠ absent)).take k = l.take k ↔ absent ∉ l.take k := by
  constructor
  · intro h hmem
    rw [← h] at hmem
    have hfilter := List.mem_filter.mp (List.mem_of_mem_take hmem)
    simp at hfilter
  · intro h
    induction l generalizing k with
    | nil => rfl
    | cons a l ih =>
      cases k with
      | zero => rfl
      | succ k =>
        simp only [List.take_succ_cons, List.mem_cons, not_or] at h
        rw [List.filter_cons_of_pos (by simpa using Ne.symm h.1), List.take_succ_cons,
          List.take_succ_cons, ih k h.2]

theorem configurations_ofRaw (raw : EnforcementRuleRaw) :
    (EnforcementRule.ofRaw raw).configurations =
      [raw.propertyFirst, raw.propertySecond, raw.propertyThird].filter (· ≠ -1) := by
  simp only [EnforcementRule.ofRaw, List.filter_cons, List.filter_nil, decide_eq_true_eq]
  split <;> split <;> split <;> rfl

theorem reaches_ofRaw_iff {raw : EnforcementRuleRaw} {r : SuppliedRule} (h : raw.Carries r) :
    Reaches (.ofRaw raw) r ↔ -1 ∉ r.values := by
  rw [reaches_iff h.channel h.object h.operation, configurations_ofRaw, ← h.values,
    take_filter_eq_iff]

/-! ## The file -/

namespace RulesParser

theorem convertObjectType_drl : convertObjectType (text "drl") = .drl := by decide

theorem convertEnforcementOperation_keyword (operation : DRLConfiguration) :
    convertEnforcementOperation .drl (text operation.keyword) = operation.toInt := by
  cases operation <;> decide

/-- The values that the parser takes from the line of a rule: those of `refill` are lost. -/
def takenValues (r : SuppliedRule) : List Int :=
  if r.operation = .refill then [] else r.values

theorem enforcementRule_tokens {r : SuppliedRule} (t : r.Tokens) :
    enforcementRule t.all = .ok (some
      { ruleId := t.ruleId
        channelId := r.channelId
        enforcementObjectId := r.objectId
        operationType := r.operation.toInt
        configurations := takenValues r }) := by
  obtain ⟨channelId, objectId, operation, values, hlength⟩ := r
  obtain ⟨rule, channel, object, tokens, ruleId, hrule, hchannel, hobject, hvalues, hwords⟩ := t
  simp only at hchannel hobject hvalues
  cases operation with
  | init =>
    obtain ⟨a, b, rfl⟩ : ∃ a b, values = [a, b] := List.length_eq_two.mp hlength
    obtain ⟨ta, tokens', ha, hvalues', rfl⟩ := List.forall₂_cons_right_iff.mp hvalues
    obtain ⟨tb, tokens'', hb, hnil, rfl⟩ := List.forall₂_cons_right_iff.mp hvalues'
    simp [enforcementRule, SuppliedRule.Tokens.all, field, convertObjectType_drl,
      convertEnforcementOperation_keyword, DRLConfiguration.toInt, takenValues, hrule, hchannel,
      hobject, ha, hb, Bind.bind, Except.bind, Pure.pure, Except.pure]
  | rate =>
    obtain ⟨a, rfl⟩ : ∃ a, values = [a] := List.length_eq_one_iff.mp hlength
    obtain ⟨ta, tokens', ha, hnil, rfl⟩ := List.forall₂_cons_right_iff.mp hvalues
    simp [enforcementRule, SuppliedRule.Tokens.all, field, convertObjectType_drl,
      convertEnforcementOperation_keyword, DRLConfiguration.toInt, takenValues, hrule, hchannel,
      hobject, ha, Bind.bind, Except.bind, Pure.pure, Except.pure]
  | refill =>
    simp [enforcementRule, SuppliedRule.Tokens.all, field, convertObjectType_drl,
      convertEnforcementOperation_keyword, DRLConfiguration.toInt, takenValues, hrule, hchannel,
      hobject, Bind.bind, Except.bind, Pure.pure, Except.pure]

/-- The line of a rule is cut into its tokens again. -/
theorem parseRule_line {r : SuppliedRule} (t : r.Tokens) : parseRule t.line = t.all := by
  have hdrl : text "drl" ≠ [] ∧ space ∉ text "drl" := by decide
  have hkeyword : text r.operation.keyword ≠ [] ∧ space ∉ text r.operation.keyword := by
    cases r.operation <;> decide
  have hwords : ∀ token ∈ t.all, token ≠ [] ∧ space ∉ token := by
    have hgiven := t.words
    simp only [List.mem_cons, forall_eq_or_imp] at hgiven
    simp only [SuppliedRule.Tokens.all, List.mem_cons, forall_eq_or_imp]
    exact ⟨hgiven.1, hgiven.2.1, hgiven.2.2.1, hdrl, hkeyword, hgiven.2.2.2⟩
  refine Words.words_intercalate (by decide) fun token htoken => ⟨(hwords token htoken).1, ?_⟩
  intro c hc
  rw [decide_eq_false_iff_not]
  intro hspace
  exact (hwords token htoken).2 (hspace ▸ hc)

/-- When every staged line is a rule, the loop passes on the first ones, up to the limit. -/
theorem collectRules_map {ρ σ : Type} {convert : List Text → Except ParseFault (Option ρ)}
    {stage : σ → List Text} (rule : σ → ρ) (hconvert : ∀ x, convert (stage x) = .ok (some (rule x)))
    (totalRules : Int) (lines : List σ) (rulesPassed : Int) (hlt : rulesPassed < totalRules) :
    collectRules convert totalRules rulesPassed (lines.map stage) =
      .ok ((lines.take (totalRules - rulesPassed).toNat).map rule) := by
  induction lines generalizing rulesPassed with
  | nil => simp [collectRules]
  | cons x rest ih =>
    rw [List.map_cons, collectRules, hconvert]
    simp only
    split
    · -- the limit is reached with this rule
      rename_i hlast
      have hone : (totalRules - rulesPassed).toNat = 1 := by omega
      rw [hone]
      rfl
    · rename_i hmore
      have hsucc : (totalRules - rulesPassed).toNat =
          (totalRules - (rulesPassed + 1)).toNat + 1 := by omega
      rw [ih (rulesPassed + 1) (by omega), hsucc]
      rfl

/-- The rule that the parser makes of a line. -/
def takenRule (w : (r : SuppliedRule) × r.Tokens) : EnforcementRule where
  ruleId := w.2.ruleId
  channelId := w.1.channelId
  enforcementObjectId := w.1.objectId
  operationType := w.1.operation.toInt
  configurations := takenValues w.1

theorem getEnforcementRules_lines (written : List ((r : SuppliedRule) × r.Tokens)) {content : Text}
    (h : getLines content = written.map fun w => w.2.line) :
    getEnforcementRules (readRulesFromFile (some content)) (-1) =
      .ok ((written.take (2 ^ 31 - 1)).map takenRule) := by
  have hstaged : readRulesFromFile (some content) = written.map fun w => w.2.all := by
    rw [readRulesFromFile, h, List.map_map]
    exact List.map_congr_left fun w _ => parseRule_line w.2
  rw [hstaged, getEnforcementRules]
  exact collectRules_map takenRule (fun w => enforcementRule_tokens w.2) _ written 0
    (by decide)

theorem reaches_takenRule_iff (w : (r : SuppliedRule) × r.Tokens) :
    Reaches (takenRule w) w.1 ↔ w.1.operation ≠ .refill := by
  rw [reaches_iff rfl rfl rfl]
  simp only [takenRule, takenValues]
  split
  · rename_i hrefill
    have hlength := w.1.length_values
    rw [hrefill] at hlength
    simp only [hrefill, List.take_nil, ne_eq, not_true_eq_false, iff_false]
    intro hnil
    rw [← hnil] at hlength
    cases hlength
  · rename_i hother
    rw [← w.1.length_values, List.take_length]
    simp [hother]

end RulesParser

/-- A rule as it is written with `std::to_string`. -/
def SuppliedRule.decimalTokens (r : SuppliedRule) (ruleId : UInt64)
    (h : ∀ x ∈ r.channelId :: r.objectId :: r.values, -2 ^ 63 ≤ x ∧ x < 2 ^ 63) : r.Tokens where
  rule := natText ruleId.toNat
  channel := decimalText r.channelId
  object := decimalText r.objectId
  values := r.values.map decimalText
  ruleId := ruleId
  rule_eq := stoull_natText ruleId
  channel_eq := stol_decimalText (h _ (by simp))
  object_eq := stol_decimalText (h _ (by simp))
  values_eq := by
    rw [List.forall₂_map_left_iff, List.forall₂_same]
    intro x hx
    exact stol_decimalText (h x (by simp [hx]))
  words := by
    have hlong : ∀ x : Int, decimalText x ≠ [] ∧ RulesParser.space ∉ decimalText x := word_decimalText
    simp only [List.mem_cons, List.mem_map, forall_eq_or_imp]
    refine ⟨word_natText _, hlong _, hlong _, ?_⟩
    rintro _ ⟨x, _, rfl⟩
    exact hlong x

/-- Every rule for a rate limiter is read by `obj_configure` as it was supplied, unless it is a
`refill` line of a file, or a structure in which one of the values is `-1`. -/
theorem values_reach_iff (written : List ((r : SuppliedRule) × r.Tokens)) (content : Text)
    (r : SuppliedRule) (raw : EnforcementRuleRaw) :
    (RulesParser.getLines content = written.map (fun w => w.2.line) →
      ∃ rules,
        RulesParser.getEnforcementRules (RulesParser.readRulesFromFile (some content)) (-1) =
          .ok rules ∧
        List.Forall₂ (fun w rule => Reaches rule w.1 ↔ w.1.operation ≠ .refill)
          (written.take (2 ^ 31 - 1)) rules) ∧
    (raw.Carries r → (Reaches (.ofRaw raw) r ↔ -1 ∉ r.values)) := by
  refine ⟨fun h => ?_, fun h => reaches_ofRaw_iff h⟩
  refine ⟨_, RulesParser.getEnforcementRules_lines written h, ?_⟩
  rw [List.forall₂_map_right_iff, List.forall₂_same]
  intro w _
  exact RulesParser.reaches_takenRule_iff w

/-- The rule `rate` with one value, for object 20 of channel 10. -/
def rateRule (value : Int) : SuppliedRule where
  channelId := 10
  objectId := 20
  operation := .rate
  values := [value]
  length_values := rfl

/-- The rule `refill` with one value, for object 20 of channel 10. -/
def refillRule (value : Int) : SuppliedRule where
  channelId := 10
  objectId := 20
  operation := .refill
  values := [value]
  length_values := rfl

/-- A file of two lines of which only the first reaches its object, and a structure that does. -/
theorem values_reach_two_lines :
    (∃ first second,
      RulesParser.getEnforcementRules (RulesParser.readRulesFromFile
        (some (text "1 10 20 drl rate 7" ++ [10] ++ text "2 10 20 drl refill 7"))) (-1) =
          .ok [first, second] ∧
      Reaches first (rateRule 7) ∧ ¬ Reaches second (refillRule 7)) ∧
    Reaches (.ofRaw
      { channelId := 10
        enforcementObjectId := 20
        enforcementOperation := 2
        propertyFirst := 7 }) (rateRule 7) := by
  have hboth := values_reach_iff
    [⟨rateRule 7, (rateRule 7).decimalTokens 1 (by decide)⟩,
      ⟨refillRule 7, (refillRule 7).decimalTokens 2 (by decide)⟩]
    (text "1 10 20 drl rate 7" ++ [10] ++ text "2 10 20 drl refill 7") (rateRule 7)
    { channelId := 10
      enforcementObjectId := 20
      enforcementOperation := 2
      propertyFirst := 7 }
  have hfile := hboth.1 (by decide)
  obtain ⟨rules, hrules, hreach⟩ := hfile
  obtain ⟨first, rest, hfirst, hrest, rfl⟩ := List.forall₂_cons_left_iff.mp hreach
  obtain ⟨second, rest', hsecond, hnil, rfl⟩ := List.forall₂_cons_left_iff.mp hrest
  rw [List.forall₂_nil_left_iff.mp hnil] at hrules
  refine ⟨⟨first, second, hrules, hfirst.mpr (by decide), fun h => hsecond.mp h rfl⟩, ?_⟩
  exact (hboth.2 ⟨rfl, rfl, rfl, rfl⟩).mpr (by decide)

/-- The window of a `refill` line is not passed on, and `obj_configure` reads a value that is not
there. It does so as well for a rate of `-1` that comes in the structure. -/
theorem missing_value_read :
    (∃ rule,
      RulesParser.getEnforcementRules (RulesParser.readRulesFromFile
        (some (text "2 10 20 drl refill 7"))) (-1) = .ok [rule] ∧
      ¬ Reaches rule (refillRule 7) ∧
      ∀ d : DynamicRateLimiter,
        d.objConfigure rule.operationType rule.configurations = .error .outOfBounds) ∧
    ∃ raw : EnforcementRuleRaw, raw.Carries (rateRule (-1)) ∧
      ¬ Reaches (.ofRaw raw) (rateRule (-1)) ∧
      ∀ d : DynamicRateLimiter,
        d.objConfigure (EnforcementRule.ofRaw raw).operationType
          (EnforcementRule.ofRaw raw).configurations = .error .outOfBounds := by
  refine ⟨⟨_, RulesParser.getEnforcementRules_lines
    [⟨refillRule 7, (refillRule 7).decimalTokens 2 (by decide)⟩]
    (by decide), ?_, fun d => rfl⟩, ?_⟩
  · rw [RulesParser.reaches_takenRule_iff]
    exact fun h => h rfl
  · have hcarries : EnforcementRuleRaw.Carries
        { channelId := 10
          enforcementObjectId := 20
          enforcementOperation := 2 } (rateRule (-1)) := ⟨rfl, rfl, rfl, rfl⟩
    refine ⟨_, hcarries, ?_, fun d => rfl⟩
    rw [reaches_ofRaw_iff hcarries]
    decide

end Paio
