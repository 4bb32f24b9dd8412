import Paio.EnforcementRules
import Paio.RuleOutcome

/-!
# Paio.RulesFile

A stage without a controller takes its rules from files when its agent is constructed. The rules of
channels are employed first, then the rules of objects; both loops write the status of each rule
over that of the one before, and the stage is marked ready when the status that is left is good.
`ready_from_file_iff` says for which files readiness means that every rule was applied: those in
which the last rule is refused, or no rule is.
-/

namespace Paio

/-- What keeps a constructor from coming back. -/
inductive FileFault where
  | parse (f : ParseFault)
  | run (f : Fault)
  | exception (what : String)

namespace Agent

variable (opt : Options) (hash : String → UInt32)

/-! ## The loops -/

/-- A loop over the rules of a file: the status is that of the last rule. -/
def employFileRules (clock : UInt64 → Clock) :
    PStatus → Agent → List HousekeepingRule → Except FileFault (Agent × PStatus)
  | status, agent, [] => .ok (agent, status)
  | _, agent, rule :: rest =>
    match agent.employHousekeepingRule opt hash (clock rule.ruleId) rule with
    | .ok (agent', .returned status) => employFileRules clock status agent' rest
    | .ok (_, .threw what) => .error (.exception what)
    | .error f => .error (.run f)

/-- `files` gives the content of the files that can be opened. -/
def insertHousekeepingRulesFromFile (clock : UInt64 → Clock) (agent : Agent)
    (files : Text → Option Text) (path : Text) (totalRules : Int) :
    Except FileFault (Agent × PStatus) :=
  if path = [] then .ok (agent, .error)
  else
    let stagedRules := RulesParser.readRulesFromFile (files path)
    match RulesParser.getCreateChannelRules stagedRules totalRules with
    | .error f => .error (.parse f)
    | .ok createChannelRules =>
      match employFileRules opt hash clock .error agent createChannelRules with
      | .error f => .error f
      | .ok (agent₁, status) =>
        match RulesParser.getCreateObjectRules stagedRules totalRules with
        | .error f => .error (.parse f)
        | .ok createObjectRules => employFileRules opt hash clock status agent₁ createObjectRules

/-- The loop over enforcement rules counts those that are applied. -/
def employEnforcementRules : Agent → Int → List EnforcementRule → Except FileFault (Agent × Int)
  | agent, rulesEnforced, [] => .ok (agent, rulesEnforced)
  | agent, rulesEnforced, rule :: rest =>
    match agent.core.employ rule with
    | .ok (core, status) =>
      employEnforcementRules { agent with core := core }
        (if status.isOk then rulesEnforced + 1 else rulesEnforced) rest
    | .error f => .error (.run f)

def insertEnforcementRulesFromFile (agent : Agent) (files : Text → Option Text) (path : Text)
    (totalRules : Int) : Except FileFault (Agent × Int) :=
  if path = [] then .ok (agent, -1)
  else
    match RulesParser.getEnforcementRules (RulesParser.readRulesFromFile (files path))
        totalRules with
    | .error f => .error (.parse f)
    | .ok rules => employEnforcementRules agent 0 rules

/-- The constructor without a controller: the agent and whether the stage is ready. Differentiation
rules are not implemented. -/
def newControllerless (clock : UInt64 → Clock) (core : Core) (executeOnReceive : Bool)
    (files : Text → Option Text) (housekeepingRulesFile enforcementRulesFile : Text)
    (instances : Int) : Except FileFault (Agent × Bool) :=
  match insertHousekeepingRulesFromFile opt hash clock
      { core := core, executeOnReceive := executeOnReceive } files housekeepingRulesFile
      instances with
  | .error f => .error f
  | .ok (agent, status) =>
    if status.isOk then
      match agent.insertEnforcementRulesFromFile files enforcementRulesFile (-1) with
      | .error f => .error f
      | .ok (agent', _) => .ok (agent', true)
    else .ok (agent, false)

/-- The rules that are parsed from a file, in the order in which they are employed. -/
def fileRules (files : Text → Option Text) (path : Text) (totalRules : Int) :
    Except ParseFault (List HousekeepingRule) :=
  if path = [] then .ok []
  else
    let stagedRules := RulesParser.readRulesFromFile (files path)
    match RulesParser.getCreateChannelRules stagedRules totalRules with
    | .error f => .error f
    | .ok createChannelRules =>
      match RulesParser.getCreateObjectRules stagedRules totalRules with
      | .error f => .error f
      | .ok createObjectRules => .ok (createChannelRules ++ createObjectRules)

variable {opt hash} {clock : UInt64 → Clock} {agent agent' : Agent}

/-- The status that a loop leaves is that of its last rule. -/
theorem employFileRules_of_employAll {rules : List HousekeepingRule} {status : PStatus}
    {statuses : List PStatus}
    (h : agent.employAll opt hash clock rules = .ok (agent', statuses.map .returned)) :
    employFileRules opt hash clock status agent rules =
      .ok (agent', statuses.getLast?.getD status) := by
  induction rules generalizing status agent statuses with
  | nil =>
    cases statuses with
    | nil => cases h; rfl
    | cons s rest => cases h
  | cons rule rest ih =>
    obtain ⟨agent₁, completion, completions, hrule, hrest, hcons⟩ := CallSequence.run_cons h
    cases statuses with
    | nil => cases hcons
    | cons s statuses' =>
      obtain ⟨rfl, rfl⟩ := List.cons.inj hcons
      simp only [employFileRules, hrule]
      rw [ih hrest, List.getLast?_cons]
      rfl

theorem employFileRules_append {rules₁ rules₂ : List HousekeepingRule} {status : PStatus} :
    employFileRules opt hash clock status agent (rules₁ ++ rules₂) =
      match employFileRules opt hash clock status agent rules₁ with
      | .error f => .error f
      | .ok (agent₁, status₁) => employFileRules opt hash clock status₁ agent₁ rules₂ := by
  induction rules₁ generalizing status agent with
  | nil => rfl
  | cons rule rest ih =>
    simp only [List.cons_append, employFileRules]
    split
    · exact ih
    · rfl
    · rfl

/-- When parsing succeeds, the two loops are one loop over the rules of the file. -/
theorem insertHousekeepingRulesFromFile_eq {files : Text → Option Text} {path : Text}
    {totalRules : Int} {rules : List HousekeepingRule}
    (h : fileRules files path totalRules = .ok rules) :
    insertHousekeepingRulesFromFile opt hash clock agent files path totalRules =
      employFileRules opt hash clock .error agent rules := by
  simp only [fileRules] at h
  rw [insertHousekeepingRulesFromFile]
  split at h
  · cases h
    rename_i hpath
    rw [if_pos hpath]
    rfl
  · rename_i hpath
    rw [if_neg hpath]
    split at h
    · cases h
    · rename_i channelRules hchannels
      split at h
      · cases h
      · rename_i objectRules hobjects
        cases h
        rw [employFileRules_append]
        simp only [hchannels, hobjects]

end Agent

/-! ## The rules of a file -/

/-- A rule as the parser makes it: it creates something, and the rule of an object has a type that
exists and two initial values. -/
structure HousekeepingRule.FromFile (r : HousekeepingRule) : Prop where
  creates : r.Creates
  pending : r.enforced = false
  types : r.ruleType = .createObject → r.objectType ≠ none
  values : r.ruleType = .createObject → 2 ≤ r.objectConfigurations.length

namespace RulesParser

theorem createChannelRule_fromFile {stagedRule : List Text} {r : HousekeepingRule}
    (h : createChannelRule stagedRule = .ok (some r)) : r.FromFile := by
  simp only [createChannelRule, bind_eq_ok] at h
  obtain ⟨operation, _, h⟩ := h
  split at h
  · split at h
    · cases h
    · simp only [bind_eq_ok] at h
      obtain ⟨contextType, -, _, -, workflow, -, _, -, operationType, -, _, -, operationContext, -,
        _, -, ruleId, -, _, -, channelId, -, h⟩ := h
      cases h
      refine ⟨.inl rfl, rfl, ?_, ?_⟩
      · rintro ⟨⟩
      · rintro ⟨⟩
  · cases h

theorem getPropertiesSize_of_six {r : HousekeepingRule} (h : r.properties.length = 6) :
    r.getPropertiesSize = 6 := by
  rw [HousekeepingRule.getPropertiesSize, h]
  decide

/-- The properties of an object's rule have the type at the fourth place. -/
theorem objectType_of_six (r : HousekeepingRule) (a b c x y : Int) (type : EnforcementObjectType)
    (h : r.properties = [a, b, c, type.toLong, x, y]) : r.objectType = some type := by
  have hsize : r.getPropertiesSize = 6 := getPropertiesSize_of_six (by rw [h]; rfl)
  rw [HousekeepingRule.objectType, HousekeepingRule.getPropertyAtIndex, if_pos (by omega), h]
  cases type <;> rfl

theorem objectConfigurations_of_six (r : HousekeepingRule) (a b c d x y : Int)
    (h : r.properties = [a, b, c, d, x, y]) : r.objectConfigurations = [x, y] := by
  have hsize : r.getPropertiesSize = 6 := getPropertiesSize_of_six (by rw [h]; rfl)
  rw [HousekeepingRule.objectConfigurations, hsize, HousekeepingRule.getPropertiesAtRange, hsize, h]
  rfl

theorem createObjectRule_fromFile {stagedRule : List Text} {r : HousekeepingRule}
    (h : createObjectRule stagedRule = .ok (some r)) : r.FromFile := by
  simp only [createObjectRule, bind_eq_ok] at h
  obtain ⟨operation, _, h⟩ := h
  split at h
  · split at h
    · cases h
    · simp only [bind_eq_ok] at h
      obtain ⟨contextType, -, _, -, operationType, -, _, -, operationContext, -, objectType, -,
        _, -, first, -, _, -, second, -, _, -, ruleId, -, _, -, channelId, -, _, -, objectId, -,
        h⟩ := h
      cases h
      refine ⟨.inr rfl, rfl, fun _ => ?_, fun _ => ?_⟩
      · rw [objectType_of_six _ _ _ _ _ _ _ rfl]
        simp
      · rw [objectConfigurations_of_six _ _ _ _ _ _ _ rfl]
        simp
  · cases h

/-- What every converted rule satisfies, every collected rule satisfies. -/
theorem forall_mem_collectRules {ρ : Type} {convert : List Text → Except ParseFault (Option ρ)}
    {P : ρ → Prop} (hconvert : ∀ {staged rule}, convert staged = .ok (some rule) → P rule)
    {totalRules : Int} {stagedRules : List (List Text)} {rulesPassed : Int} {rules : List ρ}
    (h : collectRules convert totalRules rulesPassed stagedRules = .ok rules) :
    ∀ rule ∈ rules, P rule := by
  induction stagedRules generalizing rulesPassed rules with
  | nil =>
    cases h
    simp
  | cons staged rest ih =>
    rw [collectRules] at h
    split at h
    · cases h
    · exact ih h
    · rename_i rule hrule
      split at h
      · cases h
        simpa using hconvert hrule
      · split at h
        · rename_i rules' hrest
          cases h
          simpa using ⟨hconvert hrule, ih hrest⟩
        · cases h

end RulesParser

theorem fromFile_of_fileRules {files : Text → Option Text} {path : Text} {totalRules : Int}
    {rules : List HousekeepingRule} (h : Agent.fileRules files path totalRules = .ok rules) :
    ∀ r ∈ rules, r.FromFile := by
  simp only [Agent.fileRules] at h
  split at h
  · cases h
    simp
  · split at h
    · cases h
    · rename_i channelRules hchannels
      split at h
      · cases h
      · rename_i objectRules hobjects
        cases h
        intro r hr
        rcases List.mem_append.mp hr with hr | hr
        · exact RulesParser.forall_mem_collectRules RulesParser.createChannelRule_fromFile
            hchannels r hr
        · exact RulesParser.forall_mem_collectRules RulesParser.createObjectRule_fromFile
            hobjects r hr

/-! ## Which rules are accepted -/

namespace Core

variable (opt : Options) (hash : String → UInt32)

/-- The rules that are accepted out of those received, the newest first: a rule is accepted when its
identifier is new and it fits to those that were accepted before. -/
def Taken (core₀ : Core) : List HousekeepingRule → HousekeepingRule → Prop
  | [], _ => False
  | r :: earlier, r' => core₀.Taken earlier r' ∨
      (r' = r ∧ r.ruleId ∉ earlier.map HousekeepingRule.ruleId ∧
        Fits opt hash core₀ (core₀.Taken earlier) r)

/-- The rule is accepted after the earlier ones, the newest first. -/
def Accepts (core₀ : Core) (earlier : List HousekeepingRule) (r : HousekeepingRule) : Prop :=
  r.ruleId ∉ earlier.map HousekeepingRule.ruleId ∧
    Fits opt hash core₀ (core₀.Taken opt hash earlier) r

def AllAccepted (core₀ : Core) : List HousekeepingRule → Prop
  | [] => True
  | r :: earlier => core₀.AllAccepted earlier ∧ core₀.Accepts opt hash earlier r

/-- When the last rule is accepted, so are all before it. -/
def LastDecides (core₀ : Core) (rules : List HousekeepingRule) : Prop :=
  ∀ r earlier, rules.reverse = r :: earlier → core₀.Accepts opt hash earlier r →
    core₀.AllAccepted opt hash earlier

/-- No channels and no rules; the classifiers are free. -/
structure IsEmpty (core₀ : Core) : Prop where
  channels : core₀.channels = ∅
  linkers : core₀.channelIdToTokenLinkers = []
  rules : core₀.housekeepingTable.housekeepingRules = ∅

variable {opt hash} {core₀ : Core}

theorem IsEmpty.wellLinked (h : core₀.IsEmpty) : core₀.WellLinked opt hash := by
  rw [WellLinked, h.channels, h.linkers]
  exact LinkedMap.linked_empty

theorem taken_cons_of_accepts {earlier : List HousekeepingRule} {r : HousekeepingRule}
    (h : core₀.Accepts opt hash earlier r) (r' : HousekeepingRule) :
    (core₀.Taken opt hash earlier r' ∨ r' = r) ↔ core₀.Taken opt hash (r :: earlier) r' := by
  simp only [Taken]
  exact or_congr_right (iff_self_and.mpr fun _ => h)

theorem taken_cons_of_not_accepts {earlier : List HousekeepingRule} {r : HousekeepingRule}
    (h : ¬ core₀.Accepts opt hash earlier r) (r' : HousekeepingRule) :
    core₀.Taken opt hash earlier r' ↔ core₀.Taken opt hash (r :: earlier) r' := by
  simp only [Taken]
  exact (or_iff_left fun hr => h hr.2).symm

end Core

namespace Agent

variable {opt : Options} {hash : String → UInt32}

variable (opt hash) in
/-- The rules of a file, the newest first, employed one after the other. -/
theorem employAll_fromFile {core₀ : Core} (hempty : core₀.IsEmpty) (clock : UInt64 → Clock)
    (rules : List HousekeepingRule) (hfile : ∀ r ∈ rules, r.FromFile) :
    ∃ (agent : Agent) (statuses : List PStatus),
      ({ core := core₀ } : Agent).employAll opt hash clock rules.reverse =
        .ok (agent, statuses.map .returned) ∧
      Received opt hash core₀ (· ∈ rules.map HousekeepingRule.ruleId) (core₀.Taken opt hash rules)
        agent ∧
      ((∀ s ∈ statuses, s = .ok) ↔ core₀.AllAccepted opt hash rules) ∧
      (statuses.getLast? = some .ok ↔
        ∃ r earlier, rules = r :: earlier ∧ core₀.Accepts opt hash earlier r) := by
  induction rules with
  | nil =>
    refine ⟨{ core := core₀ }, [], rfl, ?_, by simp [Core.AllAccepted], by simp⟩
    exact (received_start hempty.wellLinked).congr (by simp) (by simp [Core.Taken])
  | cons r earlier ih =>
    obtain ⟨agent, statuses, hrun, hreceived, hall, _⟩ :=
      ih fun r' hr' => hfile r' (List.mem_cons_of_mem r hr')
    obtain ⟨hcreates, hpending, htypes, hvalues⟩ := hfile r List.mem_cons_self
    have hpossible : ¬ Core.Faulty opt hash core₀ (core₀.Taken opt hash earlier) r := by
      intro hf
      have hsome := ChannelDefault.isSome_ruleObject (core₀.baseChannel opt r.channelId)
        (htypes hf.type) fun _ => hvalues hf.type
      rw [hf.impossible] at hsome
      cases hsome
    have hfresh : r.ruleId ∉ core₀.housekeepingTable.housekeepingRules := by
      rw [hempty.rules]
      exact Finmap.notMem_empty
    have hseen : ∀ id, (id ∈ earlier.map HousekeepingRule.ruleId ∨ id = r.ruleId) ↔
        id ∈ (r :: earlier).map HousekeepingRule.ruleId := by
      intro id
      rw [List.map_cons, List.mem_cons, or_comm]
    obtain ⟨_, hunseen, hfits, agent', he, hreceived'⟩ | ⟨hnot, agent', he, hreceived'⟩ :=
      hreceived.employ hempty.wellLinked hcreates hpending (fun hr => htypes hr.1 hr.2) hpossible
        (clock r.ruleId)
    · have haccepts : core₀.Accepts opt hash earlier r := ⟨hunseen, hfits⟩
      refine ⟨agent', statuses ++ [.ok], ?_,
        hreceived'.congr hseen (Core.taken_cons_of_accepts haccepts), ?_, ?_⟩
      · rw [List.reverse_cons, List.map_append]
        exact CallSequence.run_snoc hrun he
      · simp [Core.AllAccepted, haccepts, ← hall, or_imp]
      · simp [haccepts]
    · have haccepts : ¬ core₀.Accepts opt hash earlier r := fun h => hnot ⟨hfresh, h⟩
      refine ⟨agent', statuses ++ [.error], ?_,
        hreceived'.congr hseen (Core.taken_cons_of_not_accepts haccepts), ?_, ?_⟩
      · rw [List.reverse_cons, List.map_append]
        exact CallSequence.run_snoc hrun he
      · simp [Core.AllAccepted, haccepts]
      · simp [haccepts]

/-- The constructor comes back with a ready stage exactly when the status is good. -/
theorem newControllerless_ready {clock : UInt64 → Clock} {core₀ : Core} {executeOnReceive : Bool}
    {files : Text → Option Text} {path enforcementRulesFile : Text} {instances : Int}
    {agent agent' : Agent} {status : PStatus} {ready : Bool}
    (hinsert : insertHousekeepingRulesFromFile opt hash clock
      { core := core₀, executeOnReceive := executeOnReceive } files path instances =
        .ok (agent, status))
    (hnew : newControllerless opt hash clock core₀ executeOnReceive files path enforcementRulesFile
      instances = .ok (agent', ready)) : ready = true ↔ status = .ok := by
  rw [newControllerless, hinsert] at hnew
  simp only at hnew
  split at hnew
  · rename_i hok
    split at hnew
    · cases hnew
    · cases hnew
      simpa using hok
  · rename_i hok
    cases hnew
    simpa using hok

/-- A file of which the rules can be parsed, on an empty core: the status is good, and the stage
ready, exactly when there is a rule and every rule was employed with success, if and only if the
last rule is refused or no rule before it is. -/
theorem ready_from_file_iff {core₀ : Core} (hempty : core₀.IsEmpty) (clock : UInt64 → Clock)
    {files : Text → Option Text} {path : Text} {totalRules : Int} {rules : List HousekeepingRule}
    (hparse : fileRules files path totalRules = .ok rules) :
    ∃ (agent : Agent) (status : PStatus) (statuses : List PStatus),
      insertHousekeepingRulesFromFile opt hash clock { core := core₀ } files path totalRules =
        .ok (agent, status) ∧
      (∀ enforcementRulesFile agent' ready,
        newControllerless opt hash clock core₀ true files path enforcementRulesFile totalRules =
          .ok (agent', ready) → (ready = true ↔ status = .ok)) ∧
      ({ core := core₀ } : Agent).employAll opt hash clock rules =
        .ok (agent, statuses.map .returned) ∧
      ((status = .ok ↔ rules ≠ [] ∧ ∀ s ∈ statuses, s = .ok) ↔
        core₀.LastDecides opt hash rules) := by
  obtain ⟨agent, statuses, hrun, _, hall, hlast⟩ :=
    employAll_fromFile opt hash hempty clock rules.reverse
      fun r hr => fromFile_of_fileRules hparse r (List.mem_reverse.mp hr)
  rw [List.reverse_reverse] at hrun
  have hinsert : insertHousekeepingRulesFromFile opt hash clock { core := core₀ } files path
      totalRules = .ok (agent, statuses.getLast?.getD .error) := by
    rw [insertHousekeepingRulesFromFile_eq hparse]
    exact employFileRules_of_employAll hrun
  refine ⟨agent, _, statuses, hinsert, fun enforcementRulesFile agent' ready hnew =>
    newControllerless_ready hinsert hnew, hrun, ?_⟩
  have hstatus : statuses.getLast?.getD .error = .ok ↔ statuses.getLast? = some .ok := by
    cases statuses.getLast? <;> simp
  rw [hstatus, hlast, hall]
  cases hrules : rules.reverse with
  | nil => simp_all [Core.LastDecides]
  | cons r earlier =>
    have hne : rules ≠ [] := by
      rintro rfl
      cases hrules
    simp [Core.LastDecides, Core.AllAccepted, hrules, hne]

/-- A file with the lines. -/
def fileOf (lines : List (List String)) : Text :=
  List.intercalate [10] (lines.map fun tokens =>
    List.intercalate [RulesParser.space] (tokens.map text))

/-- The tokens of lines come back when the file is read. -/
theorem readRulesFromFile_fileOf {lines : List (List String)}
    (hlines : RulesParser.getLines (fileOf lines) =
      lines.map fun tokens => List.intercalate [RulesParser.space] (tokens.map text))
    (hwords : ∀ tokens ∈ lines, ∀ token ∈ tokens.map text,
      token ≠ [] ∧ ∀ c ∈ token, decide (c = RulesParser.space) = false) :
    RulesParser.readRulesFromFile (some (fileOf lines)) =
      lines.map fun tokens => tokens.map text := by
  rw [RulesParser.readRulesFromFile, hlines, List.map_map]
  refine List.map_congr_left fun tokens htokens => ?_
  exact Words.words_intercalate (by decide) (hwords tokens htokens)

/-- An object, and after it the channel that it is for. -/
def objectFirstLines : List (List String) :=
  [["2", "create_object", "10", "7", "general", "no_op", "foreground", "drl", "1000000", "50000"],
   ["1", "create_channel", "10", "general", "1", "no_op", "foreground"]]

/-- The rules of these lines: the channels of a file come first. -/
def objectFirstRules : List HousekeepingRule :=
  [{ ruleId := 1, ruleType := .createChannel, channelId := 10, properties := [0, 1, 0, 1] },
   { ruleId := 2, ruleType := .createObject, channelId := 10, enforcementObjectId := 7,
     properties := [0, 0, 1, 1, 1000000, 50000] }]

/-- The only rule before the last is accepted, so the last one decides. -/
theorem ready_from_file_object_first :
    ∃ (agent : Agent) (status : PStatus) (statuses : List PStatus),
      insertHousekeepingRulesFromFile {} numeralHash (fun _ _ => 0) { core := Core.new {} }
        (fun _ => some (fileOf objectFirstLines)) [47] (-1) = .ok (agent, status) ∧
      ({ core := Core.new {} } : Agent).employAll {} numeralHash (fun _ _ => 0) objectFirstRules =
        .ok (agent, statuses.map .returned) ∧
      (status = .ok ↔ ∀ s ∈ statuses, s = .ok) := by
  have hparse : fileRules (fun _ => some (fileOf objectFirstLines)) [47] (-1) =
      .ok objectFirstRules := by
    rw [fileRules, if_neg (by decide),
      readRulesFromFile_fileOf (by decide) (by decide +kernel)]
    rfl
  have hempty : (Core.new {}).IsEmpty := ⟨rfl, rfl, rfl⟩
  obtain ⟨agent, status, statuses, hinsert, _, hrun, hiff⟩ :=
    @ready_from_file_iff {} numeralHash _ hempty (fun _ _ => 0) _ _ _ _ hparse
  refine ⟨agent, status, statuses, hinsert, hrun, ?_⟩
  have hlast : (Core.new {}).LastDecides {} numeralHash objectFirstRules := by
    intro r earlier hrules _
    obtain ⟨-, rfl⟩ := List.cons.inj hrules
    refine ⟨trivial, by simp, ⟨.inl rfl, ⟨fun _ => ?_, ?_⟩, ?_, ?_⟩⟩
    · exact ⟨by decide, Finmap.notMem_empty⟩
    · intro htype
      cases htype
    · intro htype
      cases htype
    · intro r' hr'
      exact hr'.elim
  simpa [objectFirstRules] using hiff.mpr hlast

/-- Three channels, of which the second uses the rule identifier of the first. -/
def refusedLines : List (List String) :=
  [["1", "create_channel", "10", "general", "1", "no_op", "foreground"],
   ["1", "create_channel", "11", "general", "1", "no_op", "background"],
   ["2", "create_channel", "12", "general", "1", "no_op", "high_priority"]]

/-- The rules of these lines. -/
def refusedRules : List HousekeepingRule :=
  [{ ruleId := 1, ruleType := .createChannel, channelId := 10, properties := [0, 1, 0, 1] },
   { ruleId := 1, ruleType := .createChannel, channelId := 11, properties := [0, 1, 0, 2] },
   { ruleId := 2, ruleType := .createChannel, channelId := 12, properties := [0, 1, 0, 3] }]

/-- The second channel is missing, and the stage is ready. -/
theorem ready_despite_refused_rule :
    let files : Text → Option Text := fun _ => some (fileOf refusedLines)
    fileRules files [47] (-1) = .ok refusedRules ∧
    ∃ agent : Agent,
      insertHousekeepingRulesFromFile {} numeralHash (fun _ _ => 0) { core := Core.new {} } files
        [47] (-1) = .ok (agent, .ok) ∧
      newControllerless {} numeralHash (fun _ _ => 0) (Core.new {}) true files [47] [] (-1) =
        .ok (agent, true) ∧
      ({ core := Core.new {} } : Agent).employAll {} numeralHash (fun _ _ => 0) refusedRules =
        .ok (agent, [.returned .ok, .returned .error, .returned .ok]) := by
  intro files
  have hparse : fileRules files [47] (-1) = .ok refusedRules := by
    rw [fileRules, if_neg (by decide),
      readRulesFromFile_fileOf (by decide) (by decide +kernel)]
    rfl
  have hsnd : (({ core := Core.new {} } : Agent).employAll {} numeralHash (fun _ _ => 0)
      refusedRules).toOption.map Prod.snd =
      some [.returned .ok, .returned .error, .returned .ok] := by decide
  refine ⟨hparse, ?_⟩
  cases hrun : ({ core := Core.new {} } : Agent).employAll {} numeralHash (fun _ _ => 0)
      refusedRules with
  | error f =>
    rw [hrun] at hsnd
    cases hsnd
  | ok out =>
    obtain ⟨agent, completions⟩ := out
    rw [hrun] at hsnd
    obtain rfl : completions = [PStatus.ok, .error, .ok].map .returned := Option.some.inj hsnd
    have hinsert : insertHousekeepingRulesFromFile {} numeralHash (fun _ _ => 0)
        { core := Core.new {} } files [47] (-1) = .ok (agent, .ok) := by
      rw [insertHousekeepingRulesFromFile_eq hparse]
      exact employFileRules_of_employAll hrun
    refine ⟨agent, hinsert, ?_, rfl⟩
    rw [newControllerless, hinsert]
    rfl

end Agent

end Paio
