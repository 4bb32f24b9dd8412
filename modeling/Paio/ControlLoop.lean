import Paio.FailedRules
import Paio.Framing
import Paio.StageState

/-!
# Paio.ControlLoop

Which control operations the loop of `listen` survives. A request for statistics that cannot be
collected is answered with nothing: the handler returns `0`, which the loop takes for a broken
connection. A request for aggregated statistics reads entries that the channels may not have, and an
enforcement rule may lack the values that its object reads. `Answerable` says of an operation and
the stage before it that none of this happens; `control_loop_survives` says that `listen` then
answers every operation and comes back.
-/

namespace Paio

namespace Core

/-! ## Channels that can be collected -/

/-- The channel of the identifier is there and collects statistics. -/
structure Collectable (core : Core) (channelId : Int) (token : UInt32)
    (channel : ChannelDefault) : Prop where
  link : core.channelIdToTokenLinkers.lookup channelId = some token
  token_ne : token ≠ noToken
  selected : core.selectChannel token = some channel
  enabled : channel.collectChannelStatistics = true

def Enabled (core : Core) (channelId : Int) : Prop :=
  ∃ token channel, core.Collectable channelId token channel

/-- The channels that the agent visits for an identifier. -/
def visited (core : Core) (channelId : Int) : List Int :=
  if channelId ≠ -1 then [channelId]
  else core.getChannelsIdentifiers.take core.getTotalChannels.toNat

/-- Up to the first channel that does not collect statistics, where the loop stops, the channels
are as `S` asks for. -/
inductive Until (S : Int → ChannelDefault → Prop) (core : Core) : List Int → Prop
  | nil : Until S core []
  | cons {channelId : Int} {rest : List Int}
      (first : ∀ token channel, core.Collectable channelId token channel → S channelId channel)
      (next : core.Enabled channelId → Until S core rest) : Until S core (channelId :: rest)

variable {α : Type} {core : Core}

/-- Without channels the loop has nothing to visit. -/
theorem collectFrom_eq (collect : Core → Int → Except Break (Core × PStatus × α)) (core : Core)
    (channelId : Int) :
    collectFrom collect core channelId =
      collectLoop collect (core.visited channelId) .error core := by
  unfold collectFrom visited
  split
  · rfl
  · split
    · rfl
    · rename_i hnone
      have hzero : core.getTotalChannels.toNat = 0 := Int.toNat_of_nonpos (not_lt.mp hnone)
      rw [hzero]
      rfl

theorem Sound.nodup_visited (h : core.Sound) (channelId : Int) :
    (core.visited channelId).Nodup := by
  unfold visited
  split
  · exact List.nodup_singleton channelId
  · exact (List.take_sublist _ _).nodup h.windowed.ids_nodup

/-- What is done to the channel of one identifier does not concern the others. -/
theorem Sound.collectable_setChannel (h : core.Sound) {channelId other : Int}
    {token token' : UInt32} {channel channel' changed : ChannelDefault}
    (hc : core.Collectable channelId token channel) (hne : other ≠ channelId) :
    (core.setChannel token changed).Collectable other token' channel' ↔
      core.Collectable other token' channel' := by
  have hapart : core.channelIdToTokenLinkers.lookup other = some token' → token' ≠ token := by
    rintro hl rfl
    exact hne (h.windowed.id_unique (AssocList.mem_of_lookup hl) (AssocList.mem_of_lookup hc.link))
  constructor
  · rintro ⟨hl, hnt, hsel, hen⟩
    exact ⟨hl, hnt, (Finmap.lookup_insert_of_ne _ (hapart hl)).symm.trans hsel, hen⟩
  · rintro ⟨hl, hnt, hsel, hen⟩
    exact ⟨hl, hnt, (Finmap.lookup_insert_of_ne _ (hapart hl)).trans hsel, hen⟩

theorem Sound.until_setChannel (h : core.Sound) {channelId : Int} {token : UInt32}
    {channel changed : ChannelDefault} (hc : core.Collectable channelId token channel)
    {S : Int → ChannelDefault → Prop} {ids : List Int} (hid : channelId ∉ ids)
    (hu : Until S core ids) : Until S (core.setChannel token changed) ids := by
  induction hu with
  | nil => exact .nil
  | @cons other rest first _ ih =>
    obtain ⟨hne, hrest⟩ := not_or.mp (mt List.mem_cons.mpr hid)
    refine .cons ?_ ?_
    · intro token' channel' hc'
      exact first token' channel' ((h.collectable_setChannel hc (Ne.symm hne)).mp hc')
    · rintro ⟨token', channel', hc'⟩
      exact ih ⟨token', channel', (h.collectable_setChannel hc (Ne.symm hne)).mp hc'⟩ hrest

theorem collectOn_of_collectable {channelId : Int} {token : UInt32} {channel : ChannelDefault}
    (h : core.Collectable channelId token channel)
    (collect : ChannelDefault → Except Break (ChannelDefault × PStatus × α)) (initial : α) :
    core.collectOn channelId collect initial =
      match collect channel with
      | .ok (channel', status, value) => .ok (core.setChannel token channel', status, value)
      | .error b => .error b :=
  collectOn_of_lookup h.link h.token_ne h.selected

/-- A channel that is not there, or does not collect statistics, ends the loop with an error. -/
theorem collectOn_of_not_enabled {channelId : Int} (h : ¬ core.Enabled channelId)
    {collect : ChannelDefault → Except Break (ChannelDefault × PStatus × α)} (initial : α)
    (hdisabled : ∀ channel, channel.collectChannelStatistics = false →
      ∃ value, collect channel = .ok (channel, .error, value)) :
    ∃ value, core.collectOn channelId collect initial = .ok (core, .error, value) := by
  unfold collectOn
  simp only
  split
  · exact ⟨initial, rfl⟩
  · rename_i htoken
    split
    · rename_i channel hsel
      have hl := core.lookup_getChannelDiffToken htoken
      have hoff : channel.collectChannelStatistics = false := by
        cases hen : channel.collectChannelStatistics with
        | false => rfl
        | true => exact absurd ⟨_, channel, hl, htoken, hsel, hen⟩ h
      obtain ⟨value, hv⟩ := hdisabled channel hoff
      rw [hv]
      exact ⟨value, by simp only [setChannel_self hsel]⟩
    · exact ⟨initial, rfl⟩

/-! ## The loop over the channels -/

section Loop

variable {work : Int → ChannelDefault → Except Break (ChannelDefault × PStatus × α)} {initial : α}
  {S : Int → ChannelDefault → Prop} {Q : Int → ChannelDefault → α → Prop}

/-- Collecting succeeds on a channel that collects statistics and is as `S` asks for. -/
def Collects (work : Int → ChannelDefault → Except Break (ChannelDefault × PStatus × α))
    (S : Int → ChannelDefault → Prop) (Q : Int → ChannelDefault → α → Prop) : Prop :=
  ∀ channelId channel, channel.collectChannelStatistics = true → channel.Sized →
    S channelId channel →
    ∃ channel' value, work channelId channel = .ok (channel', .ok, value) ∧ channel'.Sized ∧
      Q channelId channel value

variable (initial) in
/-- One pass through the loop: the channel is collected, and the channels to come are as they
were. -/
theorem collectOn_pass (hwork : Collects work S Q) (h : core.Sound) {channelId : Int}
    {rest : List Int} (hnew : channelId ∉ rest) (hu : Until S core (channelId :: rest))
    {token : UInt32} {channel : ChannelDefault} (hc : core.Collectable channelId token channel) :
    ∃ core₁ value,
      core.collectOn channelId (work channelId) initial = .ok (core₁, .ok, value) ∧
      Q channelId channel value ∧ core₁.Sound ∧ Until S core₁ rest ∧
      ∀ other ∈ rest, ∀ token' channel₂,
        core₁.Collectable other token' channel₂ ↔ core.Collectable other token' channel₂ := by
  cases hu with | cons first next
  obtain ⟨channel', value, hw, hsized, hQ⟩ :=
    hwork channelId channel hc.enabled (h.sized hc.selected) (first token channel hc)
  refine ⟨core.setChannel token channel', value, ?_, hQ, h.setChannel hc.selected hsized,
    h.until_setChannel hc hnew (next ⟨token, channel, hc⟩), ?_⟩
  · rw [collectOn_of_collectable hc, hw]
  · intro other hmem token' channel₂
    exact h.collectable_setChannel hc (ne_of_mem_of_not_mem hmem hnew)

/-- When all channels collect statistics the loop visits all of them. -/
theorem collectLoop_all (hwork : Collects work S Q) {ids : List Int} (hnd : ids.Nodup)
    (h : core.Sound) (hu : Until S core ids) (hall : ∀ channelId ∈ ids, core.Enabled channelId)
    (status : PStatus) :
    ∃ core' values, collectLoop (fun core channelId => core.collectOn channelId (work channelId)
        initial) ids status core = .ok (core', if ids = [] then status else .ok, values) ∧
      ∀ entry ∈ values, entry.1 ∈ ids ∧ ∃ token channel,
        core.Collectable entry.1 token channel ∧ Q entry.1 channel entry.2 := by
  induction ids generalizing core status with
  | nil => exact ⟨core, [], rfl, by simp⟩
  | cons channelId rest ih =>
    obtain ⟨hnew, hnd'⟩ := List.nodup_cons.mp hnd
    obtain ⟨token, channel, hc⟩ := hall channelId List.mem_cons_self
    obtain ⟨core₁, value, hfirst, hQ, h₁, hu₁, hsame⟩ := collectOn_pass initial hwork h hnew hu hc
    have hall₁ : ∀ other ∈ rest, core₁.Enabled other := by
      intro other hmem
      obtain ⟨token', channel₂, hc'⟩ := hall other (List.mem_cons_of_mem _ hmem)
      exact ⟨token', channel₂, (hsame other hmem token' channel₂).mpr hc'⟩
    obtain ⟨core', values, hrest, hvalues⟩ := ih hnd' h₁ hu₁ hall₁ .ok
    refine ⟨core', (channelId, value) :: values, ?_, ?_⟩
    · simp only [collectLoop, hfirst, hrest]
      simp [PStatus.isOk]
    · intro entry hentry
      rcases List.mem_cons.mp hentry with rfl | hmem
      · exact ⟨List.mem_cons_self, token, channel, hc, hQ⟩
      · obtain ⟨hin, token', channel₂, hc', hQ'⟩ := hvalues entry hmem
        exact ⟨List.mem_cons_of_mem _ hin, token', channel₂,
          (hsame entry.1 hin token' channel₂).mp hc', hQ'⟩

/-- The loop stops at the first channel that does not collect statistics. -/
theorem collectLoop_stops (hwork : Collects work S Q)
    (hdisabled : ∀ channelId channel, channel.collectChannelStatistics = false →
      ∃ value, work channelId channel = .ok (channel, .error, value))
    {ids : List Int} (hnd : ids.Nodup) (h : core.Sound) (hu : Until S core ids)
    (hstop : ∃ channelId ∈ ids, ¬ core.Enabled channelId) (status : PStatus) :
    ∃ core' values, collectLoop (fun core channelId => core.collectOn channelId (work channelId)
        initial) ids status core = .ok (core', .error, values) := by
  induction ids generalizing core status with
  | nil =>
    obtain ⟨channelId, hmem, _⟩ := hstop
    cases hmem
  | cons channelId rest ih =>
    by_cases hen : core.Enabled channelId
    · obtain ⟨hnew, hnd'⟩ := List.nodup_cons.mp hnd
      obtain ⟨token, channel, hc⟩ := hen
      obtain ⟨core₁, value, hfirst, _, h₁, hu₁, hsame⟩ := collectOn_pass initial hwork h hnew hu hc
      have hstop₁ : ∃ other ∈ rest, ¬ core₁.Enabled other := by
        obtain ⟨other, hmem, hnot⟩ := hstop
        rcases List.mem_cons.mp hmem with rfl | hrest
        · exact absurd ⟨token, channel, hc⟩ hnot
        · refine ⟨other, hrest, ?_⟩
          rintro ⟨token', channel₂, hc'⟩
          exact hnot ⟨token', channel₂, (hsame other hrest token' channel₂).mp hc'⟩
      obtain ⟨core', values, hrest⟩ := ih hnd' h₁ hu₁ hstop₁ .ok
      refine ⟨core', (channelId, value) :: values, ?_⟩
      simp only [collectLoop, hfirst, hrest]
      simp [PStatus.isOk]
    · obtain ⟨value, hfirst⟩ := collectOn_of_not_enabled hen initial (hdisabled channelId)
      refine ⟨core, [], ?_⟩
      simp only [collectLoop, hfirst]
      simp [PStatus.isOk]

end Loop

/-! ## Collecting one channel -/

/-- The clock has moved on since the last collection. -/
def Due (readings : Readings) (channelId : Int) (channel : ChannelDefault) : Prop :=
  channel.channelStatistics.lastCollectionTime < (readings channelId).1

theorem collects_general (readings : Readings) :
    Collects (fun channelId channel => channel.collectGeneralStatistics (readings channelId).1
      (readings channelId).2 { channelId := channelId }) (Due readings) fun _ _ _ => True := by
  intro channelId channel hen hsized hdue
  unfold Due at hdue
  have hok : channel.collectGeneralStatistics (readings channelId).1 (readings channelId).2
      { channelId := channelId } =
        .ok ({ channel with
          channelStatistics := (channel.channelStatistics.collect (readings channelId).1
            (readings channelId).2 { channelId := channelId }).1 }, .ok,
          (channel.channelStatistics.collect (readings channelId).1 (readings channelId).2
            { channelId := channelId }).2) := by
    rw [ChannelDefault.collectGeneralStatistics, if_pos hen, if_pos hdue]
  exact ⟨_, _, hok, (List.length_map _).trans hsized, trivial⟩

theorem collects_detailed (readings : Readings) :
    Collects (fun channelId channel => channel.collectDetailedStatistics (readings channelId).1 [])
      (Due readings) fun _ channel entries =>
        entries.length = channel.channelStatistics.statsSize.toNat := by
  intro channelId channel hen hsized hdue
  unfold Due at hdue
  have hentries := ChannelStatistics.collectDetailedWindowedEntries_eq hsized (readings channelId).1
    (channel.channelStatistics.elapsedTimeSinceLastCollectionInSeconds (readings channelId).1)
  have hok : channel.collectDetailedStatistics (readings channelId).1 [] =
      .ok ({ channel with
        channelStatistics := { channel.channelStatistics with
          lastCollectionTime := (readings channelId).1 }.resetWindowedCounters }, .ok,
        channel.channelStatistics.windowedCounter.map fun counter =>
          channel.channelStatistics.calculateStatisticMetric counter
            (channel.channelStatistics.elapsedTimeSinceLastCollectionInSeconds
              (readings channelId).1)) := by
    rw [ChannelDefault.collectDetailedStatistics, if_pos hen, if_pos hdue, hentries]
  exact ⟨_, _, hok, (List.length_map _).trans hsized, (List.length_map _).trans hsized⟩

end Core

namespace Agent

variable {agent : Agent}

/-- All visited channels collect statistics, and there is one. -/
theorem collectChannelStatistics_total (h : agent.core.Sound) {readings : Readings}
    {channelId : Int} (hne : agent.core.visited channelId ≠ [])
    (hu : Core.Until (Core.Due readings) agent.core (agent.core.visited channelId))
    (hall : ∀ id ∈ agent.core.visited channelId, agent.core.Enabled id) :
    ∃ agent' values, agent.collectChannelStatistics readings channelId =
      .ok (agent', .ok, values) := by
  obtain ⟨core', values, hloop, _⟩ := Core.collectLoop_all (Core.collects_general readings)
    (h.nodup_visited channelId) h hu hall .error
  rw [if_neg hne] at hloop
  have hfrom : agent.core.collectFrom (Core.collectChannelStatistics readings) channelId =
      .ok (core', .ok, values) := (Core.collectFrom_eq ..).trans hloop
  exact ⟨_, _, by rw [collectChannelStatistics, hfrom]⟩

theorem mem_emplace {ν : Type} {key : Int} {value : ν} {entries : List (Int × ν)} {e : Int × ν}
    (h : e ∈ emplace key value entries) : e = (key, value) ∨ e ∈ entries := by
  induction entries with
  | nil => exact .inl (List.mem_singleton.mp h)
  | cons first rest ih =>
    rw [emplace] at h
    split at h
    · exact (List.mem_cons.mp h)
    · split at h
      · exact .inr h
      · rcases List.mem_cons.mp h with rfl | hrest
        · exact .inr List.mem_cons_self
        · exact (ih hrest).imp_right (List.mem_cons_of_mem first)

theorem mem_foldl_emplace {ν : Type} {values entries : List (Int × ν)} {e : Int × ν}
    (h : e ∈ values.foldl (fun stats entry => emplace entry.1 entry.2 stats) entries) :
    e ∈ values ∨ e ∈ entries := by
  induction values generalizing entries with
  | nil => exact .inr h
  | cons first rest ih =>
    rcases ih h with hrest | hmem
    · exact .inl (List.mem_cons_of_mem first hrest)
    · rcases mem_emplace hmem with rfl | hold
      · exact .inl List.mem_cons_self
      · exact .inr hold

/-- The entries of the detailed statistics are those of the channels that were visited; they are
there when all of these collect statistics. -/
theorem collectDetailedChannelStatistics_total (h : agent.core.Sound) (readings : Readings)
    (channelId : Int)
    (hu : Core.Until (Core.Due readings) agent.core (agent.core.visited channelId)) :
    ∃ agent' status stats, agent.collectDetailedChannelStatistics readings channelId =
      .ok (agent', status, stats) ∧
      (status = .ok → (∀ id ∈ agent.core.visited channelId, agent.core.Enabled id) ∧
        ∀ entry ∈ stats, entry.1 ∈ agent.core.visited channelId ∧ ∃ token channel,
          agent.core.Collectable entry.1 token channel ∧
          entry.2.length = channel.channelStatistics.statsSize.toNat) := by
  by_cases hall : ∀ id ∈ agent.core.visited channelId, agent.core.Enabled id
  · obtain ⟨core', values, hloop, hvalues⟩ := Core.collectLoop_all (Core.collects_detailed readings)
      (h.nodup_visited channelId) h hu hall .error
    have hfrom : agent.core.collectFrom (Core.collectChannelStatisticsDetailed readings) channelId =
        .ok (core', if agent.core.visited channelId = [] then .error else .ok, values) :=
      (Core.collectFrom_eq ..).trans hloop
    refine ⟨_, _, _, by rw [collectDetailedChannelStatistics, hfrom], ?_⟩
    intro _
    refine ⟨hall, ?_⟩
    intro entry hentry
    rcases mem_foldl_emplace hentry with hmem | hnil
    · exact hvalues entry hmem
    · cases hnil
  · have hstop : ∃ id ∈ agent.core.visited channelId, ¬ agent.core.Enabled id := by
      simpa using hall
    have hdisabled : ∀ (id : Int) (channel : ChannelDefault),
        channel.collectChannelStatistics = false →
        ∃ value, channel.collectDetailedStatistics (readings id).1 [] =
          .ok (channel, .error, value) := by
      intro id channel hoff
      exact ⟨[], by simp [ChannelDefault.collectDetailedStatistics, hoff]⟩
    obtain ⟨core', values, hloop⟩ := Core.collectLoop_stops (Core.collects_detailed readings)
      hdisabled (h.nodup_visited channelId) h hu hstop .error
    have hfrom : agent.core.collectFrom (Core.collectChannelStatisticsDetailed readings) channelId =
        .ok (core', .error, values) := (Core.collectFrom_eq ..).trans hloop
    refine ⟨_, _, _, by rw [collectDetailedChannelStatistics, hfrom], ?_⟩
    intro hok
    cases hok

end Agent

/-! ## Aggregating -/

theorem sumAt_total (entries : List ℚ) (positions : List Nat)
    (h : ∀ position ∈ positions, position < entries.length) :
    ∃ sum, sumAt entries positions = .ok sum := by
  induction positions with
  | nil => exact ⟨0, rfl⟩
  | cons position rest ih =>
    obtain ⟨sum, hsum⟩ := ih fun p hp => h p (List.mem_cons_of_mem _ hp)
    have hentry := List.getElem?_eq_getElem (h position List.mem_cons_self)
    exact ⟨_, by rw [sumAt, hentry, hsum]⟩

theorem foldlM_total {τ β : Type} {step : τ → β → Except Fault τ} {items : List β}
    (h : ∀ t, ∀ item ∈ items, ∃ t', step t item = .ok t') (t : τ) :
    ∃ t', items.foldlM step t = .ok t' := by
  induction items generalizing t with
  | nil => exact ⟨t, rfl⟩
  | cons item rest ih =>
    obtain ⟨t₁, hfirst⟩ := h t item List.mem_cons_self
    obtain ⟨t₂, hrest⟩ := ih (fun t i hi => h t i (List.mem_cons_of_mem _ hi)) t₁
    refine ⟨t₂, ?_⟩
    rw [List.foldlM_cons, hfirst]
    exact hrest

/-- How many entries an aggregation reads of a channel. -/
def ControlPlaneOperationSubtype.needed : ControlPlaneOperationSubtype → Int → Nat
  | .collectStatsRocksdb, channelId =>
    if channelId < 2000 then 9 else if channelId = 2000 then 2 else 8
  | .collectStatsTensorflow, _ => 7
  | .collectStatsMetadataData, _ => 8
  | _, _ => 0

theorem addPair_total (first second : List Nat) (n : Nat) (hfirst : ∀ p ∈ first, p < n)
    (hsecond : ∀ p ∈ second, p < n) {entry : Int × List ℚ} (h : n ≤ entry.2.length)
    (sums : ℚ × ℚ) : ∃ sums', addPair first second sums entry = .ok sums' := by
  obtain ⟨x, hx⟩ := sumAt_total entry.2 first fun p hp => (hfirst p hp).trans_le h
  obtain ⟨y, hy⟩ := sumAt_total entry.2 second fun p hp => (hsecond p hp).trans_le h
  exact ⟨_, by rw [addPair, hx, hy]⟩

theorem KvsRates.addEntry_total {entry : Int × List ℚ}
    (h : ControlPlaneOperationSubtype.collectStatsRocksdb.needed entry.1 ≤ entry.2.length)
    (rates : KvsRates) : ∃ rates', rates.addEntry entry = .ok rates' := by
  simp only [ControlPlaneOperationSubtype.needed] at h
  unfold addEntry
  split
  · rename_i hfg
    rw [if_pos hfg] at h
    obtain ⟨x, hx⟩ := sumAt_total entry.2 [8] (by simp; omega)
    exact ⟨_, by rw [hx]⟩
  · rename_i hfg
    rw [if_neg hfg] at h
    split
    · rename_i hflush
      rw [if_pos hflush] at h
      obtain ⟨x, hx⟩ := sumAt_total entry.2 [1] (by simp; omega)
      exact ⟨_, by rw [hx]⟩
    · rename_i hflush
      rw [if_neg hflush] at h
      obtain ⟨x, hx⟩ := sumAt_total entry.2 [3, 4] (by simp; omega)
      obtain ⟨y, hy⟩ := sumAt_total entry.2 [5, 6, 7] (by simp; omega)
      exact ⟨_, by rw [hx, hy]⟩

/-- With the entries that it reads, an aggregation comes back. -/
def Aggregates {ρ : Type} (subtype : ControlPlaneOperationSubtype)
    (aggregate : DetailedStats → ρ → Except Fault (PStatus × ρ)) : Prop :=
  ∀ stats raw, (∀ entry ∈ stats, subtype.needed entry.1 ≤ entry.2.length) →
    ∃ status raw', aggregate stats raw = .ok (status, raw')

theorem aggregates_kvs : Aggregates .collectStatsRocksdb aggregateKvsStatistics := by
  intro stats raw h
  unfold aggregateKvsStatistics
  split
  · exact ⟨_, _, rfl⟩
  · obtain ⟨rates, hrates⟩ := foldlM_total
      (fun rates entry hentry => KvsRates.addEntry_total (h entry hentry) rates) {}
    rw [hrates]
    exact ⟨_, _, rfl⟩

theorem aggregates_tf : Aggregates .collectStatsTensorflow aggregateTfStatistics := by
  intro stats raw h
  unfold aggregateTfStatistics
  split
  · exact ⟨_, _, rfl⟩
  · obtain ⟨sums, hsums⟩ := foldlM_total
      (fun sums entry hentry => addPair_total [0, 1, 3, 5] [2, 4, 6] 7 (by decide)
        (by decide) (h entry hentry) sums) (0, 0)
    rw [hsums]
    exact ⟨_, _, rfl⟩

theorem aggregates_global : Aggregates .collectStatsGlobal aggregateGlobalStatistics := by
  intro stats raw _
  unfold aggregateGlobalStatistics
  split
  · exact ⟨_, _, rfl⟩
  · exact ⟨_, _, rfl⟩

theorem aggregates_metadataData :
    Aggregates .collectStatsMetadataData aggregateMetadataDataStatistics := by
  intro stats raw h
  unfold aggregateMetadataDataStatistics
  split
  · exact ⟨_, _, rfl⟩
  · obtain ⟨sums, hsums⟩ := foldlM_total
      (fun sums entry hentry => addPair_total [6] [7] 8 (by decide) (by decide)
        (h entry hentry) sums) (0, 0)
    rw [hsums]
    exact ⟨_, _, rfl⟩

/-! ## What can be answered -/

namespace Core

/-- The statistics of the channel, or of all channels, can be collected: there is something to
collect, every channel that is visited collects statistics, and the clock has moved on since their
last collection. -/
structure StatisticsAnswerable (core : Core) (readings : Readings) (channelId : Int) : Prop where
  visited : core.visited channelId ≠ []
  enabled : ∀ id ∈ core.visited channelId, core.Enabled id
  due : Until (Due readings) core (core.visited channelId)

/-- Either the loop over the channels stops at one that does not collect statistics, or the channels
have the entries that the aggregation reads. -/
structure DetailsAnswerable (core : Core) (readings : Readings) (channelId : Int)
    (subtype : ControlPlaneOperationSubtype) : Prop where
  due : Until (Due readings) core (core.visited channelId)
  entries : (∀ id ∈ core.visited channelId, core.Enabled id) →
    ∀ id ∈ core.visited channelId, ∀ token channel, core.Collectable id token channel →
      subtype.needed id ≤ channel.channelStatistics.statsSize.toNat

/-- A rule that configures a rate limiter carries the values that the limiter reads. -/
def RuleAnswerable (core : Core) (rule : EnforcementRule) : Prop :=
  ∀ channelToken objectToken channel d,
    core.DrlAt rule.channelId rule.enforcementObjectId channelToken objectToken channel d →
    ∀ operation, DRLConfiguration.ofInt rule.operationType = some operation →
      operation.arity ≤ rule.configurations.length

end Core

theorem DynamicRateLimiter.objConfigure_total (d : DynamicRateLimiter) {conf : Int}
    {confValues : List Int}
    (h : ∀ operation, DRLConfiguration.ofInt conf = some operation →
      operation.arity ≤ confValues.length) :
    ∃ d' status, d.objConfigure conf confValues = .ok (d', status) := by
  unfold objConfigure
  cases hconf : DRLConfiguration.ofInt conf with
  | none => exact ⟨_, _, rfl⟩
  | some operation =>
    have harity := h operation hconf
    cases operation with
    | init =>
      rcases confValues with _ | ⟨a, _ | ⟨b, rest⟩⟩
      · cases harity
      · cases harity; contradiction
      · exact ⟨_, _, rfl⟩
    | rate =>
      rcases confValues with _ | ⟨a, rest⟩
      · cases harity
      · exact ⟨_, _, rfl⟩
    | refill =>
      rcases confValues with _ | ⟨a, rest⟩
      · cases harity
      · exact ⟨_, _, rfl⟩

namespace Core

variable {core : Core}

theorem employ_total {rule : EnforcementRule} (h : core.RuleAnswerable rule) :
    ∃ core' status, core.employ rule = .ok (core', status) := by
  unfold employ employEnforcementRule
  by_cases htoken : core.getChannelDiffToken rule.channelId = noToken
  · exact ⟨core, .error, by simp [onChannel, htoken]⟩
  · cases hsel : core.selectChannel (core.getChannelDiffToken rule.channelId) with
    | none => exact ⟨core, .error, by simp [onChannel, htoken, hsel]⟩
    | some channel =>
      have hlink := core.lookup_getChannelDiffToken htoken
      obtain ⟨channel', status, hconf⟩ : ∃ channel' status,
          channel.configureEnforcementObject rule.enforcementObjectId rule.operationType
            rule.configurations = .ok (channel', status) := by
        unfold ChannelDefault.configureEnforcementObject SubmissionQueue.configureEnforcementObject
        simp only
        split
        · exact ⟨_, _, rfl⟩
        · rename_i hobject
          have hobjectLink := channel.lookup_getEnforcementObjectDiffToken hobject
          cases ho : channel.submissionQueue.selectEnforcementObject
              (channel.getEnforcementObjectDiffToken rule.enforcementObjectId) with
          | none => exact ⟨_, _, rfl⟩
          | some object =>
            cases object with
            | noop n => exact ⟨_, _, rfl⟩
            | drl d =>
              obtain ⟨d', status, hd⟩ := d.objConfigure_total
                (h _ _ channel d ⟨hlink, htoken, hsel, hobjectLink, hobject, ho⟩)
              simp only [EnforcementObject.objConfigure, hd]
              exact ⟨_, _, rfl⟩
      rw [onChannel_of_lookup hlink htoken hsel, hconf]
      exact ⟨_, _, rfl⟩

end Core

/-- A structure that arrives as a whole. -/
theorem readInto_whole {α : Type} (L : StructLayout.Layout α) (initial : α) {received : List UInt8}
    (h : received.length = L.size) : readInto L initial received = .ok (L.decode received) := by
  have hdrop : (L.encode initial).drop received.length = [] := by
    rw [List.drop_eq_nil_iff, StructLayout.Layout.length_encode, h]
  rw [readInto, if_pos h.le, StructLayout.overlay, hdrop, List.append_nil]

namespace Southbound

/-- The operations that are implemented. -/
def Implemented (operation : ControlOperation) : Prop :=
  match operation.type with
  | some .markStageReady | some .collectStats | some .createEnfRule | some .execHskRules => True
  | some .collectDetailedStats =>
    operation.subtype = some .collectStatsRocksdb ∨
      operation.subtype = some .collectStatsTensorflow ∨
      operation.subtype = some .collectStatsGlobal ∨
      operation.subtype = some .collectStatsMetadataData
  | some .createHskRule =>
    operation.subtype = some .hskCreateChannel ∨ operation.subtype = some .hskCreateObject
  | some .stageHandshake | some .createDifRule | some .removeRule | none => False

/-- What an operation with its structure asks of the stage before it is handled. -/
def Answerable (env : Environment) (operation : ControlOperation) (payload : List UInt8)
    (stage : Stage) : Prop :=
  match operation.type with
  | some .collectStats =>
    stage.agent.core.StatisticsAnswerable env.readings
      (CollectStatisticsMetadata.layout.decode payload).channelId
  | some .collectDetailedStats => ∀ subtype, operation.subtype = some subtype →
      stage.agent.core.DetailsAnswerable env.readings (-1) subtype
  | some .createEnfRule =>
    stage.agent.core.RuleAnswerable
      (EnforcementRule.ofRaw (EnforcementRuleRaw.layout.decode payload))
  | _ => True

/-- The operation got a reply, and the value does not end the loop. -/
def Answers (handled : Handled) : Prop := handled.replies ≠ [] ∧ 0 < handled.value

theorem answers_reply (stage : Stage) (r : ControlReply) : Answers (.reply stage r) := by
  refine ⟨by simp [Handled.reply], ?_⟩
  cases r <;> simp [Handled.reply, ControlReply.size]

variable {env : Environment} {stage : Stage} {operation : ControlOperation} {payload : List UInt8}

theorem collectStatistics_answers (hs : stage.agent.core.Sound)
    (hsize : operation.size = CollectStatisticsMetadata.layout.size)
    (hpayload : payload.length = CollectStatisticsMetadata.layout.size)
    (h : stage.agent.core.StatisticsAnswerable env.readings
      (CollectStatisticsMetadata.layout.decode payload).channelId) :
    ∃ handled, collectStatistics env operation payload stage = .ok handled ∧ Answers handled := by
  have hne : payload ≠ [] := by
    rintro rfl
    cases hpayload
  obtain ⟨agent, values, hc⟩ :=
    Agent.collectChannelStatistics_total hs h.visited h.due h.enabled
  rw [collectStatistics, if_neg hne, readInto_whole _ _ hpayload]
  simp only [hc]
  rw [if_pos (by rfl), if_neg (not_not.mpr hsize)]
  refine ⟨_, rfl, by simp, ?_⟩
  simp only [List.map_cons, List.sum_cons, ControlReply.size]
  omega

theorem replyStatistics_answers {ρ : Type} {subtype : ControlPlaneOperationSubtype}
    {aggregate : DetailedStats → ρ → Except Fault (PStatus × ρ)}
    (hagg : Aggregates subtype aggregate) (initial : ρ) (reply : ρ → ControlReply) {agent : Agent}
    {status : PStatus} {stats : DetailedStats}
    (h : status = .ok → ∀ entry ∈ stats, subtype.needed entry.1 ≤ entry.2.length) :
    ∃ handled, replyStatistics aggregate initial reply stage (.ok (agent, status, stats)) =
      .ok handled ∧ Answers handled := by
  rw [replyStatistics]
  split
  · rename_i hok
    obtain ⟨status', raw, hraw⟩ := hagg stats initial (h (PStatus.isOk_iff.mp hok))
    rw [hraw]
    exact ⟨_, rfl, answers_reply _ _⟩
  · exact ⟨_, rfl, answers_reply _ _⟩

theorem answerInstanceStatistics_answers {ρ : Type} {subtype : ControlPlaneOperationSubtype}
    {aggregate : DetailedStats → ρ → Except Fault (PStatus × ρ)}
    (hagg : Aggregates subtype aggregate) (initial : ρ) (reply : ρ → ControlReply)
    (hs : stage.agent.core.Sound)
    (h : stage.agent.core.DetailsAnswerable env.readings (-1) subtype) :
    ∃ handled, answerInstanceStatistics env aggregate initial reply stage = .ok handled ∧
      Answers handled := by
  obtain ⟨agent, status, stats, hc, hentries⟩ :=
    Agent.collectDetailedChannelStatistics_total hs env.readings (-1) h.due
  rw [answerInstanceStatistics, hc]
  refine replyStatistics_answers hagg initial reply ?_
  intro hok entry hentry
  obtain ⟨hall, hstats⟩ := hentries hok
  obtain ⟨hmem, token, channel, hcol, hlength⟩ := hstats entry hentry
  rw [hlength]
  exact h.entries hall entry.1 hmem token channel hcol

theorem collectInstanceStatistics_answers (hs : stage.agent.core.Sound)
    (himp : operation.subtype = some .collectStatsRocksdb ∨
      operation.subtype = some .collectStatsTensorflow ∨
      operation.subtype = some .collectStatsGlobal ∨
      operation.subtype = some .collectStatsMetadataData)
    (h : ∀ subtype, operation.subtype = some subtype →
      stage.agent.core.DetailsAnswerable env.readings (-1) subtype) :
    ∃ handled, collectInstanceStatistics env operation stage = .ok handled ∧ Answers handled := by
  unfold collectInstanceStatistics
  rcases himp with hsub | hsub | hsub | hsub
  · have hd := h _ hsub
    rw [hsub]
    exact answerInstanceStatistics_answers aggregates_kvs {} .silk hs hd
  · have hd := h _ hsub
    rw [hsub]
    exact answerInstanceStatistics_answers aggregates_tf {} .tensorFlow hs hd
  · have hd := h _ hsub
    rw [hsub]
    exact answerInstanceStatistics_answers aggregates_global {} .global hs hd
  · have hd := h _ hsub
    rw [hsub]
    exact answerInstanceStatistics_answers aggregates_metadataData {} .dataMetadata hs hd

theorem markStageAsReady_answers (hpayload : payload.length = StageReadyRaw.layout.size) :
    ∃ handled, markStageAsReady payload stage = .ok handled ∧ Answers handled := by
  rw [markStageAsReady, readInto_whole _ _ hpayload]
  simp only
  split
  · exact ⟨_, rfl, answers_reply _ _⟩
  · split
    · exact ⟨_, rfl, answers_reply _ _⟩
    · exact ⟨_, rfl, answers_reply _ _⟩

theorem createEnforcementRule_answers (hpayload : payload.length = EnforcementRuleRaw.layout.size)
    (h : stage.agent.core.RuleAnswerable
      (EnforcementRule.ofRaw (EnforcementRuleRaw.layout.decode payload))) :
    ∃ handled, createEnforcementRule payload stage = .ok handled ∧ Answers handled := by
  obtain ⟨core, status, he⟩ := Core.employ_total h
  rw [createEnforcementRule, readInto_whole _ _ hpayload]
  simp only [he]
  split
  · exact ⟨_, rfl, answers_reply _ _⟩
  · exact ⟨_, rfl, answers_reply _ _⟩

section

variable (opt : Options) (hash : String → UInt32)

theorem employHousekeepingRule_answers (hs : stage.agent.core.Sound) {r : HousekeepingRule}
    (hr : r.Harmless) :
    ∃ handled, employHousekeepingRule opt hash env r stage = .ok handled ∧ Answers handled := by
  obtain ⟨stage', code, he, _⟩ := employHousekeepingRule_total opt hash env hs hr
  exact ⟨_, he, answers_reply _ _⟩

theorem createHousekeepingRule_answers (hs : stage.agent.core.Sound)
    (htype : operation.type = some .createHskRule)
    (hpayload : payload.length = operation.structureSize)
    (himp : operation.subtype = some .hskCreateChannel ∨
      operation.subtype = some .hskCreateObject) :
    ∃ handled, createHousekeepingRule opt hash env operation payload stage = .ok handled ∧
      Answers handled := by
  unfold createHousekeepingRule
  rcases himp with hsub | hsub
  · simp only [ControlOperation.structureSize, htype, hsub] at hpayload
    rw [hsub, readInto_whole _ _ hpayload]
    simp only
    split
    · exact ⟨_, rfl, answers_reply _ _⟩
    · exact employHousekeepingRule_answers opt hash hs
        (HousekeepingCreateChannelRaw.harmless_rule _)
  · simp only [ControlOperation.structureSize, htype, hsub] at hpayload
    rw [hsub, readInto_whole _ _ hpayload]
    simp only
    split
    · exact ⟨_, rfl, answers_reply _ _⟩
    · exact employHousekeepingRule_answers opt hash hs
        (HousekeepingCreateObjectRaw.harmless_rule _)

theorem executeHousekeepingRules_answers (hs : stage.agent.core.Sound) :
    ∃ handled, executeHousekeepingRules opt hash env stage = .ok handled ∧ Answers handled := by
  obtain ⟨agent, status, he, _⟩ :=
    stage.agent.executeHousekeepingRules_total opt hash hs env.ruleClock env.order
  rw [executeHousekeepingRules, he]
  exact ⟨_, rfl, answers_reply _ _⟩

/-- An implemented operation with its whole structure is answered when it can be. -/
theorem handleControlOperation_answers (hs : stage.agent.core.Sound)
    (hsize : operation.size = operation.structureSize)
    (hpayload : payload.length = operation.structureSize) (himp : Implemented operation)
    (h : Answerable env operation payload stage) :
    ∃ handled, handleControlOperation opt hash env operation payload stage = .ok handled ∧
      Answers handled := by
  unfold Implemented at himp
  unfold Answerable at h
  unfold handleControlOperation
  cases htype : operation.type with
  | none => rw [htype] at himp; cases himp
  | some type =>
    rw [htype] at himp h
    cases type with
    | stageHandshake => cases himp
    | createDifRule => cases himp
    | removeRule => cases himp
    | markStageReady =>
      simp only [ControlOperation.structureSize, htype] at hpayload
      exact markStageAsReady_answers hpayload
    | collectStats =>
      simp only [ControlOperation.structureSize, htype] at hsize hpayload
      exact collectStatistics_answers hs hsize hpayload h
    | collectDetailedStats => exact collectInstanceStatistics_answers hs himp h
    | createHskRule => exact createHousekeepingRule_answers opt hash hs htype hpayload himp
    | createEnfRule =>
      simp only [ControlOperation.structureSize, htype] at hpayload
      exact createEnforcementRule_answers hpayload h
    | execHskRules => exact executeHousekeepingRules_answers opt hash hs

end

/-! ## Runs of the loop -/

/-- Every operation of the run can be answered on the stage that it meets. -/
def AnswerableRun (opt : Options) (hash : String → UInt32) (env : Nat → Environment) :
    Nat → Stage → List Message → Prop
  | _, _, [] => True
  | i, stage, m :: rest =>
    Answerable (env i) m.operation m.payload ((env i).application stage) ∧
      ∀ handled, handleControlOperation opt hash (env i) m.operation m.payload
        ((env i).application stage) = .ok handled → AnswerableRun opt hash env (i + 1)
          handled.stage rest

variable {opt : Options} {hash : String → UInt32} {envs : Nat → Environment}

theorem handleAll_answers {messages : List Message}
    (happ : ∀ i stage, Stage.Reachable opt hash stage →
      Stage.Reachable opt hash ((envs i).application stage))
    (hm : ∀ m ∈ messages, Message.WellFormed m ∧ Implemented m.operation) (i : Nat)
    (session : Session) (hreach : Stage.Reachable opt hash session.stage)
    (h : AnswerableRun opt hash envs i session.stage messages) :
    ∃ session' answers, (protocol opt hash envs).handleAll i session messages = .ok session' ∧
      session'.answers = session.answers ++ answers ∧ answers.length = messages.length ∧
      ∀ answer ∈ answers, answer.replies ≠ [] ∧ 0 < answer.value := by
  induction messages generalizing i session with
  | nil => exact ⟨session, [], rfl, by simp, rfl, by simp⟩
  | cons m rest ih =>
    obtain ⟨hwf, himp⟩ := hm m List.mem_cons_self
    obtain ⟨hfirst, hnext⟩ := h
    have hreach' := happ i session.stage hreach
    obtain ⟨handled, hh, hreplies, hvalue⟩ := handleControlOperation_answers opt hash
      hreach'.sound hwf.size hwf.payload himp hfirst
    have hhandle : (protocol opt hash envs).handle i session m.header m.payload =
        .ok { stage := handled.stage
              answers := session.answers ++
                [{ replies := handled.replies, value := handled.value }] } :=
      (handle_eq_ok opt hash (envs i)).mpr ⟨handled, hh, hvalue, rfl⟩
    obtain ⟨session', answers, hrest, hanswers, hlength, hall⟩ :=
      ih (fun m' hm' => hm m' (List.mem_cons_of_mem m hm')) (i + 1)
        { stage := handled.stage
          answers := session.answers ++ [{ replies := handled.replies, value := handled.value }] }
        (hreach'.handled hh) (hnext handled hh)
    refine ⟨session', { replies := handled.replies, value := handled.value } :: answers, ?_, ?_,
      by rw [List.length_cons, List.length_cons, hlength], ?_⟩
    · rw [FramedStream.Protocol.handleAll, hhandle]
      exact hrest
    · rw [hanswers, List.append_assoc]
      rfl
    · intro answer hanswer
      rcases List.mem_cons.mp hanswer with rfl | hmem
      · exact ⟨hreplies, hvalue⟩
      · exact hall answer hmem

/-- From every reachable stage, with whole reads, `listen` answers every one of the messages and
comes back, when each of them can be answered on the stage that it meets. -/
theorem control_loop_survives {split : Nat → Nat} {stage : Stage} {messages : List Message}
    (hreach : Stage.Reachable opt hash stage)
    (happ : ∀ i stage, Stage.Reachable opt hash stage →
      Stage.Reachable opt hash ((envs i).application stage))
    (hm : ∀ m ∈ messages, Message.WellFormed m ∧ Implemented m.operation)
    (hwhole : WholeReads opt hash envs split messages)
    (h : AnswerableRun opt hash envs 0 stage messages) :
    ∃ session, listen opt hash envs split (FramedStream.Protocol.encode messages) stage =
        (messages, .closed session) ∧ session.answers.length = messages.length ∧
      ∀ answer ∈ session.answers, answer.replies ≠ [] ∧ 0 < answer.value := by
  obtain ⟨session, answers, hall, hanswers, hlength, hgood⟩ :=
    handleAll_answers happ hm 0 { stage := stage } hreach h
  have hsent := sent_of_handleAll (fun m hmem => (hm m hmem).1) hall
  refine ⟨session, (listen_eq_iff hsent).mpr ⟨hwhole, hall⟩, ?_, ?_⟩
  · rw [hanswers]
    exact hlength
  · rw [hanswers]
    exact hgood

/-! ### Statistics of a stage with one channel, and of a stage without -/

/-- A stage with one channel, which was started at time 0. -/
def oneChannelStage : Stage where
  agent := { core := Core.newWith Core.workflowOptions numeralHash 1 true true fun _ _ => 0 }

/-- The statistics of a channel, or of all channels, are asked for. -/
def collectMessage (channelId : Int) : Message :=
  Message.ofOperation { operationId := 1, operationType := 2, size := 16 }
    (CollectStatisticsMetadata.layout.encode { channelId := channelId })

theorem operation_collectMessage (channelId : Int) :
    (collectMessage channelId).operation =
      { operationId := 1, operationType := 2, size := 16 } :=
  Message.operation_ofOperation ⟨by decide, by decide, by decide, by decide⟩ _

theorem wellFormed_collectMessage (channelId : Int) : (collectMessage channelId).WellFormed where
  header := StructLayout.Layout.length_encode _ _
  size := by rw [operation_collectMessage]; rfl
  payload := by
    rw [operation_collectMessage]
    exact StructLayout.Layout.length_encode _ _

theorem oneChannelStage_channel {token : UInt32} {channel : ChannelDefault}
    (hl : oneChannelStage.agent.core.channelIdToTokenLinkers.lookup 1 = some token)
    (hsel : oneChannelStage.agent.core.selectChannel token = some channel) :
    channel.collectChannelStatistics = true ∧
      channel.channelStatistics.lastCollectionTime = 0 := by
  have htoken : oneChannelStage.agent.core.channelIdToTokenLinkers.lookup 1 = some 1 := by decide
  obtain rfl : 1 = token := Option.some.inj (htoken.symm.trans hl)
  have hchannel : (oneChannelStage.agent.core.selectChannel 1).map (fun channel =>
      (channel.collectChannelStatistics, channel.channelStatistics.lastCollectionTime)) =
        some (true, 0) := by decide
  rw [hsel] at hchannel
  exact Prod.mk.inj (Option.some.inj hchannel)

/-- The statistics of the one channel can be collected at any later time. -/
theorem oneChannelStage_answerable {readings : Readings} (hlater : 0 < (readings 1).1) :
    oneChannelStage.agent.core.StatisticsAnswerable readings (-1) := by
  have hvisited : oneChannelStage.agent.core.visited (-1) = [1] := by decide
  refine ⟨by rw [hvisited]; decide, ?_, ?_⟩
  · rw [hvisited]
    intro id hid
    obtain rfl := List.mem_singleton.mp hid
    obtain ⟨channel, hsel⟩ : ∃ channel, oneChannelStage.agent.core.selectChannel 1 =
      some channel := Option.isSome_iff_exists.mp (by decide)
    have hl : oneChannelStage.agent.core.channelIdToTokenLinkers.lookup 1 = some 1 := by decide
    exact ⟨1, channel, hl, by decide, hsel, (oneChannelStage_channel hl hsel).1⟩
  · rw [hvisited]
    refine .cons ?_ fun _ => .nil
    intro token channel hc
    rw [Core.Due, (oneChannelStage_channel hc.link hc.selected).2]
    exact hlater

/-- The stage is marked as ready, its statistics are collected, and its rules are executed. -/
theorem control_loop_survives_collect :
    ∃ session, listen Core.workflowOptions numeralHash (fun _ => { readings := fun _ => (5, 6) })
        (fun _ => 16)
        (FramedStream.Protocol.encode [readyMessage, collectMessage (-1), executeMessage])
        oneChannelStage = ([readyMessage, collectMessage (-1), executeMessage], .closed session) ∧
      session.answers.length = 3 ∧
      ∀ answer ∈ session.answers, answer.replies ≠ [] ∧ 0 < answer.value := by
  have hchannel : (CollectStatisticsMetadata.layout.decode
      (collectMessage (-1)).payload).channelId = -1 := by decide
  refine control_loop_survives (.newWith 1 true true (fun _ _ => 0) true) (fun _ _ h => h) ?_
    ⟨by decide, by decide, by decide, by decide, by decide, trivial⟩
    ⟨trivial, fun handled hhandled => ⟨?_, fun _ _ => ⟨trivial, fun _ _ => trivial⟩⟩⟩
  · intro m hmem
    simp only [List.mem_cons, List.not_mem_nil, or_false] at hmem
    obtain rfl | rfl | rfl := hmem
    · exact ⟨wellFormed_readyMessage, trivial⟩
    · refine ⟨wellFormed_collectMessage (-1), ?_⟩
      rw [operation_collectMessage]
      trivial
    · exact ⟨wellFormed_executeMessage, trivial⟩
  · have hstage : handled.stage = oneChannelStage.markDataPlaneStageReady := by
      cases hhandled
      rfl
    rw [operation_collectMessage, hstage]
    show oneChannelStage.agent.core.StatisticsAnswerable _ _
    rw [hchannel]
    exact oneChannelStage_answerable (by decide)

/-- Without channels nothing is written and the loop takes the value `0` for a broken connection. -/
theorem collect_stats_unanswered :
    Stage.Reachable {} numeralHash emptyStage ∧ (collectMessage (-1)).WellFormed ∧
    Implemented (collectMessage (-1)).operation ∧
    WholeReads {} numeralHash (fun _ => {}) (fun _ => 16) [collectMessage (-1)] ∧
    listen {} numeralHash (fun _ => {}) (fun _ => 16)
        (FramedStream.Protocol.encode [collectMessage (-1)]) emptyStage =
      ([collectMessage (-1)],
        .failed (.threw "ConnectionManager: failed to receive control operation.")) := by
  refine ⟨.new true, wellFormed_collectMessage (-1), ?_, ⟨by decide, by decide, trivial⟩, rfl⟩
  rw [operation_collectMessage]
  trivial

end Southbound

end Paio
