import Paio.Agent
import Paio.Statistics

/-!
# Paio.Collection

Collecting the statistics of one channel or of all, down from the agent. The loop over the channels
stops at the first that is not collected, and its status is that of the channel it has visited
last; without channels there is nothing to visit and the status stays an error.

`elapsed_time_since_last_collection` asserts that the clock has moved on since the last
collection. An assertion that fails ends the program (`Break.aborted`).
-/

namespace Paio

open ChannelStatistics (ChannelStatsRaw)

/-- What keeps the handler of a control operation from coming back. -/
inductive Break where
  | fault (f : Fault)
  | threw (what : String)
  | aborted
  deriving DecidableEq, Repr

/-! ## One channel -/

namespace ChannelDefault

/-- `now` and `later` are the two readings that `collect` makes. -/
def collectGeneralStatistics (ch : ChannelDefault) (now later : Int) (raw : ChannelStatsRaw) :
    Except Break (ChannelDefault × PStatus × ChannelStatsRaw) :=
  if ch.collectChannelStatistics then
    if ch.channelStatistics.lastCollectionTime < now then
      let (stats, raw') := ch.channelStatistics.collect now later raw
      .ok ({ ch with channelStatistics := stats }, .ok, raw')
    else .error .aborted
  else .ok (ch, .error, raw)

def collectDetailedStatistics (ch : ChannelDefault) (now : Int) (detailedStatEntries : List ℚ) :
    Except Break (ChannelDefault × PStatus × List ℚ) :=
  if ch.collectChannelStatistics then
    if ch.channelStatistics.lastCollectionTime < now then
      match ch.channelStatistics.collectDetailedWindowedEntries now
          (ch.channelStatistics.elapsedTimeSinceLastCollectionInSeconds now)
          detailedStatEntries with
      | .ok (stats, entries) => .ok ({ ch with channelStatistics := stats }, .ok, entries)
      | .error f => .error (.fault f)
    else .error .aborted
  else .ok (ch, .error, detailedStatEntries)

end ChannelDefault

/-! ## One channel of the core -/

/-- The two readings of the clock for a channel. -/
abbrev Readings := Int → Int × Int

namespace Core

variable {α : Type}

/-- What the two calls of the core share: the channel is looked up by its identifier, as in
`onChannel`, and collects into `initial`. -/
def collectOn (core : Core) (channelId : Int)
    (collect : ChannelDefault → Except Break (ChannelDefault × PStatus × α)) (initial : α) :
    Except Break (Core × PStatus × α) :=
  let channelToken := core.getChannelDiffToken channelId
  if channelToken = noToken then .ok (core, .error, initial)
  else
    match core.selectChannel channelToken with
    | some channel =>
      match collect channel with
      | .ok (channel', status, value) => .ok (core.setChannel channelToken channel', status, value)
      | .error b => .error b
    | none => .ok (core, .error, initial)

theorem collectOn_of_lookup {core : Core} {channelId : Int} {token : UInt32}
    {channel : ChannelDefault} {collect : ChannelDefault → Except Break (ChannelDefault × PStatus × α)}
    {initial : α} (hl : core.channelIdToTokenLinkers.lookup channelId = some token)
    (htoken : token ≠ noToken) (hsel : core.selectChannel token = some channel) :
    core.collectOn channelId collect initial =
      match collect channel with
      | .ok (channel', status, value) => .ok (core.setChannel token channel', status, value)
      | .error b => .error b := by
  simp [collectOn, getChannelDiffToken, hl, htoken, hsel]

/-- A collection either gives up or lets the channel of the identifier collect. -/
theorem collectOn_cases {core core' : Core} {channelId : Int} {status : PStatus} {initial value : α}
    {collect : ChannelDefault → Except Break (ChannelDefault × PStatus × α)}
    (h : core.collectOn channelId collect initial = .ok (core', status, value)) :
    core' = core ∨
    ∃ token channel channel', core.selectChannel token = some channel ∧
      collect channel = .ok (channel', status, value) ∧ core' = core.setChannel token channel' := by
  simp only [collectOn] at h
  split at h
  · cases h; exact .inl rfl
  · split at h
    · rename_i channel hsel
      split at h
      · rename_i channel' status' value' hw
        cases h
        exact .inr ⟨_, channel, channel', hsel, hw, rfl⟩
      · cases h
    · cases h; exact .inl rfl

/-- A collection that succeeds is one of the channel. -/
theorem collectOn_ok {core core' : Core} {channelId : Int} {initial value : α}
    {collect : ChannelDefault → Except Break (ChannelDefault × PStatus × α)}
    (h : core.collectOn channelId collect initial = .ok (core', .ok, value)) :
    ∃ token channel channel', core.selectChannel token = some channel ∧
      collect channel = .ok (channel', .ok, value) ∧ core' = core.setChannel token channel' := by
  simp only [collectOn] at h
  split at h
  · cases h
  · split at h
    · rename_i channel hsel
      split at h
      · rename_i channel' status' value' hw
        cases h
        exact ⟨_, channel, channel', hsel, hw, rfl⟩
      · cases h
    · cases h

def collectChannelStatistics (readings : Readings) (core : Core) (channelId : Int) :
    Except Break (Core × PStatus × ChannelStatsRaw) :=
  core.collectOn channelId
    (fun channel => channel.collectGeneralStatistics (readings channelId).1 (readings channelId).2
      { channelId := channelId }) {}

def collectChannelStatisticsDetailed (readings : Readings) (core : Core) (channelId : Int) :
    Except Break (Core × PStatus × List ℚ) :=
  core.collectOn channelId
    (fun channel => channel.collectDetailedStatistics (readings channelId).1 []) []

def getChannelsIdentifiers (core : Core) : List Int := core.channelIdToTokenLinkers.map Prod.fst

/-- The loop of the agent over channel identifiers: `status` is that of the last channel. -/
def collectLoop (collect : Core → Int → Except Break (Core × PStatus × α)) :
    List Int → PStatus → Core → Except Break (Core × PStatus × List (Int × α))
  | [], status, core => .ok (core, status, [])
  | channelId :: rest, _, core =>
    match collect core channelId with
    | .error b => .error b
    | .ok (core', status, value) =>
      if status.isOk then
        match collectLoop collect rest status core' with
        | .ok (core'', status', values) => .ok (core'', status', (channelId, value) :: values)
        | .error b => .error b
      else .ok (core', status, [])

/-- One channel, or all of them when the identifier is `-1`. -/
def collectFrom (collect : Core → Int → Except Break (Core × PStatus × α)) (core : Core)
    (channelId : Int) : Except Break (Core × PStatus × List (Int × α)) :=
  if channelId ≠ -1 then collectLoop collect [channelId] .error core
  else if 0 < core.getTotalChannels then
    collectLoop collect (core.getChannelsIdentifiers.take core.getTotalChannels.toNat) .error core
  else .ok (core, .error, [])

/-! ### What a collection keeps -/

section

variable {P : Core → Prop}

theorem collectOn_preserves {core core' : Core} {channelId : Int} {status : PStatus}
    {initial value : α}
    {collect : ChannelDefault → Except Break (ChannelDefault × PStatus × α)}
    (hcollect : ∀ token channel channel' status value, core.selectChannel token = some channel →
      collect channel = .ok (channel', status, value) → P (core.setChannel token channel'))
    (hP : P core) (h : core.collectOn channelId collect initial = .ok (core', status, value)) :
    P core' := by
  obtain rfl | ⟨token, channel, channel', hsel, hw, rfl⟩ := collectOn_cases h
  · exact hP
  · exact hcollect token channel channel' status value hsel hw

theorem collectLoop_preserves {collect : Core → Int → Except Break (Core × PStatus × α)}
    (hcollect : ∀ core core' channelId status value, P core →
      collect core channelId = .ok (core', status, value) → P core')
    {ids : List Int} {status status' : PStatus} {values : List (Int × α)} {core core' : Core}
    (hP : P core) (h : collectLoop collect ids status core = .ok (core', status', values)) :
    P core' := by
  induction ids generalizing core status values with
  | nil => cases h; exact hP
  | cons channelId rest ih =>
    simp only [collectLoop] at h
    split at h
    · cases h
    · rename_i core₁ status₁ value hfirst
      have hP₁ := hcollect core core₁ channelId status₁ value hP hfirst
      split at h
      · split at h
        · rename_i core₂ status₂ values₂ hrest
          cases h
          exact ih hP₁ hrest
        · cases h
      · cases h
        exact hP₁

/-- A loop that succeeds has collected every channel, each from a core that has the property. -/
theorem collectLoop_ok {collect : Core → Int → Except Break (Core × PStatus × α)} {Q : α → Prop}
    (hcollect : ∀ core core' channelId value, P core →
      collect core channelId = .ok (core', .ok, value) → P core' ∧ Q value)
    {ids : List Int} {status : PStatus} {values : List (Int × α)} {core core' : Core}
    (hP : P core) (h : collectLoop collect ids status core = .ok (core', .ok, values)) :
    values.map Prod.fst = ids ∧ ∀ entry ∈ values, Q entry.2 := by
  induction ids generalizing core status values with
  | nil => cases h; exact ⟨rfl, by simp⟩
  | cons channelId rest ih =>
    simp only [collectLoop] at h
    split at h
    · cases h
    · rename_i core₁ status₁ value hfirst
      split at h
      · rename_i hok
        split at h
        · rename_i core₂ status₂ values₂ hrest
          cases h
          rw [PStatus.isOk_iff.mp hok] at hfirst
          obtain ⟨hP₁, hvalue⟩ := hcollect core core₁ channelId value hP hfirst
          obtain ⟨hids, hvalues⟩ := ih hP₁ hrest
          exact ⟨congrArg (channelId :: ·) hids, List.forall_mem_cons.mpr ⟨hvalue, hvalues⟩⟩
        · cases h
      · rename_i hok
        cases h
        exact absurd rfl hok

theorem collectFrom_preserves {collect : Core → Int → Except Break (Core × PStatus × α)}
    (hcollect : ∀ core core' channelId status value, P core →
      collect core channelId = .ok (core', status, value) → P core')
    {channelId : Int} {status : PStatus} {values : List (Int × α)} {core core' : Core}
    (hP : P core) (h : collectFrom collect core channelId = .ok (core', status, values)) :
    P core' := by
  simp only [collectFrom] at h
  split at h
  · exact collectLoop_preserves hcollect hP h
  · split at h
    · exact collectLoop_preserves hcollect hP h
    · cases h
      exact hP

end

end Core

/-! ## The agent -/

/-- `std::map::emplace`: the entries are in the order of their keys, and a key that is there keeps
its value. -/
def emplace {ν : Type} (key : Int) (value : ν) : List (Int × ν) → List (Int × ν)
  | [] => [(key, value)]
  | (k, v) :: rest =>
    if key < k then (key, value) :: (k, v) :: rest
    else if key = k then (k, v) :: rest
    else (k, v) :: emplace key value rest

/-- The detailed statistics by channel. -/
abbrev DetailedStats := List (Int × List ℚ)

namespace Agent

/-- The statistics of one channel or of all, in the order of collection. -/
def collectChannelStatistics (readings : Readings) (agent : Agent) (channelId : Int) :
    Except Break (Agent × PStatus × List ChannelStatsRaw) :=
  match agent.core.collectFrom (Core.collectChannelStatistics readings) channelId with
  | .ok (core, status, values) => .ok ({ agent with core := core }, status, values.map Prod.snd)
  | .error b => .error b

def collectDetailedChannelStatistics (readings : Readings) (agent : Agent) (channelId : Int) :
    Except Break (Agent × PStatus × DetailedStats) :=
  match agent.core.collectFrom (Core.collectChannelStatisticsDetailed readings) channelId with
  | .ok (core, status, values) =>
    .ok ({ agent with core := core }, status,
      values.foldl (fun stats entry => emplace entry.1 entry.2 stats) [])
  | .error b => .error b

/-- What the agent collected in detail, under the identifiers of the channels. -/
theorem collectDetailedChannelStatistics_eq_ok {agent agent' : Agent} {readings : Readings}
    {channelId : Int} {status : PStatus} {stats : DetailedStats}
    (h : agent.collectDetailedChannelStatistics readings channelId =
      .ok (agent', status, stats)) :
    ∃ core values, agent.core.collectFrom (Core.collectChannelStatisticsDetailed readings)
        channelId = .ok (core, status, values) ∧ agent' = { agent with core := core } ∧
      stats = values.foldl (fun stats entry => emplace entry.1 entry.2 stats) [] := by
  unfold collectDetailedChannelStatistics at h
  split at h
  · rename_i core status' values hfrom
    cases h
    exact ⟨core, values, hfrom, rfl, rfl⟩
  · cases h

end Agent

end Paio
