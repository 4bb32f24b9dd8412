import Mathlib.Algebra.Order.BigOperators.Group.List
import Paio.ChannelCalls
import Paio.ChannelFrames
import Paio.CollectionPaths
import Paio.Library.Meter
import Paio.StageRequests

/-!
# Paio.Monitoring

What the control plane learns about the requests of the application. A request adds to the windowed
counters of the channel that serves it; a collection sends what is in the windows, as a rate or as a
count, and resets them. Requests and control operations come in any order, and some operations
create channels and objects in between.

A channel is a meter (`Meter`), and a life of the stage is a run of this meter (`Life.metered`). So
`told_accounts`: the rates that were sent for a channel, each times its interval, together with what
is still in the windows, are all that requests have added. No request is lost between two
collections and none is told twice.
-/

namespace Paio

variable {opt : Options} {hash : String → UInt32}

open ChannelStatistics (ChannelStatsRaw sumCounters)

/-! ## Statistics as a meter -/

namespace ChannelStatistics

/-- What a windowed metric counts for over an interval of the clock, which is in microseconds. -/
def scale (s : ChannelStatistics) : ℚ → ℚ :=
  match s.collectionMetric with
  | .throughput => fun interval => interval / 1000 / 1000
  | .counter => fun _ => 1

theorem scale_throughput {s : ChannelStatistics} (h : s.collectionMetric = .throughput)
    (interval : ℚ) : s.scale interval = interval / 1000 / 1000 := by
  rw [scale, h]

theorem scale_counter {s : ChannelStatistics} (h : s.collectionMetric = .counter)
    (interval : ℚ) : s.scale interval = 1 := by
  rw [scale, h]

def meter (s : ChannelStatistics) : Meter ℚ where
  last := s.lastCollectionTime
  pending := sumCounters s.windowedCounter

theorem sumCounters_nonneg (counters : List UInt64) : 0 ≤ sumCounters counters :=
  Nat.cast_nonneg _

theorem sumCounters_reset (counters : List UInt64) :
    sumCounters (counters.map fun _ => 0) = 0 := by
  induction counters with
  | nil => rfl
  | cons counter counters ih =>
    rw [List.map_cons, sumCounters_cons, ih, add_zero]
    exact Nat.cast_zero

/-- An amount is added to one of the counters, if none of them overflows. -/
theorem sumCounters_modify {counters : List UInt64} {i : Nat} (hi : i < counters.length)
    {value : UInt64} (hfits : sumCounters counters + value.toNat < 2 ^ 64) :
    sumCounters (counters.modify i (· + value)) = sumCounters counters + value.toNat := by
  induction counters generalizing i with
  | nil => exact absurd hi (Nat.not_lt_zero i)
  | cons counter counters ih =>
    rw [sumCounters_cons] at hfits
    have hcounter : (0 : ℚ) ≤ counter.toNat := Nat.cast_nonneg _
    have hothers := sumCounters_nonneg counters
    cases i with
    | zero =>
      have hlt : counter.toNat + value.toNat < 2 ^ 64 := by
        have hlt : (counter.toNat : ℚ) + value.toNat < 2 ^ 64 := by linarith
        exact_mod_cast hlt
      rw [List.modify_zero_cons, sumCounters_cons, sumCounters_cons, UInt64.toNat_add,
        Nat.mod_eq_of_lt hlt]
      push_cast
      ring
    | succ i =>
      rw [List.modify_succ_cons, sumCounters_cons, sumCounters_cons,
        ih (Nat.lt_of_succ_lt_succ hi) (by linarith)]
      ring

theorem collect_channelId (s : ChannelStatistics) (now later : Int) (raw : ChannelStatsRaw) :
    (s.collect now later raw).2.channelId = raw.channelId := rfl

/-- A collection is a reading of the meter. -/
theorem collect_reads {s : ChannelStatistics} {now : Int} (later : Int) (raw : ChannelStatsRaw)
    (hlast : 0 ≤ s.lastCollectionTime) (hnow : s.lastCollectionTime < now) (hlt : now < 2 ^ 64) :
    (s.collect now later raw).1.meter = ⟨now, 0⟩ ∧
      (s.collect now later raw).2.windowedMetricValue * s.scale (now - s.meter.last) =
        s.meter.pending := by
  have hwrap : now < s.lastCollectionTime + 2 ^ 64 := by omega
  have helapsed := seconds_ne_zero hnow hwrap
  refine ⟨?_, ?_⟩
  · show Meter.mk (now : ℚ) (sumCounters (s.windowedCounter.map fun _ => 0)) = _
    rw [sumCounters_reset]
  · rw [collect_windowed]
    show _ * s.scale (now - s.lastCollectionTime) = sumCounters s.windowedCounter
    cases hmetric : s.collectionMetric with
    | counter =>
      rw [aggregate_counter hmetric, scale_counter hmetric, mul_one]
    | throughput =>
      rw [aggregate_throughput hmetric, scale_throughput hmetric, ← seconds_of_le hnow.le hwrap]
      exact div_mul_cancel₀ _ helapsed

end ChannelStatistics

/-! ## The channel of a request -/

namespace ChannelDefault

/-- A request that comes back was recorded. -/
theorem channelEnforce_records {clock : Clock} {fuel : Nat} {ch ch' : ChannelDefault}
    {context : Context} {buffer : Buffer} {size : Nat} {result result' : Result}
    (h : ch.channelEnforce opt hash clock fuel context buffer size result = .ok (ch', result')) :
    ∃ ch₁ : ChannelDefault, ch₁.channelStatistics = ch.channelStatistics ∧
      ch₁.collectChannelStatistics = ch.collectChannelStatistics ∧
      ch₁.recordStatistics opt context = .ok ch' := by
  rw [channelEnforce_eq] at h
  simp only [finishRequest] at h
  split at h
  · cases h
  · rename_i q result'' _
    split at h
    · rename_i ch'' hrecord
      cases h
      exact ⟨{ ch with ticketId := ch.ticketId + 1, submissionQueue := q }, rfl, rfl, hrecord⟩
    · cases h

/-- A request that is counted. -/
theorem recordStatistics_adds {ch ch' : ChannelDefault} {context : Context}
    (hcollects : ch.collectChannelStatistics = true)
    (h : ch.recordStatistics opt context = .ok ch')
    (hfits : ch.channelStatistics.meter.pending + (statisticValue opt context).toNat < 2 ^ 64) :
    ch'.channelStatistics.meter = { ch.channelStatistics.meter with
        pending := ch.channelStatistics.meter.pending + (statisticValue opt context).toNat } ∧
      ch'.channelStatistics.scale = ch.channelStatistics.scale ∧
      ch'.channelStatistics.lastCollectionTime = ch.channelStatistics.lastCollectionTime ∧
      ch'.collectChannelStatistics = true := by
  have hposition : ((ch.channelStatistics.classifier context.operationType
      context.operationContext).tmod ch.channelStatistics.statsSize).toNat <
        ch.channelStatistics.windowedCounter.length := by
    rw [recordStatistics, if_pos hcollects] at h
    simp only [ChannelStatistics.updateStatisticEntry_eq] at h
    split at h
    · rename_i stats hu
      simp only [ChannelStatistics.updateEntry] at hu
      split at hu
      · rename_i hbounds
        omega
      · cases hu
    · cases h
  rw [recordStatistics_eq_tally h]
  simp only [tally, hcollects, if_true]
  refine ⟨?_, rfl, rfl, trivial⟩
  simp only [ChannelStatistics.meter, ChannelStatistics.add] at hfits ⊢
  rw [ChannelStatistics.sumCounters_modify hposition hfits]

end ChannelDefault

/-! ## Operations that count nothing -/

namespace ChannelDefault

/-- The statistics are the same, and whether they are collected. -/
structure SameStatistics (ch ch' : ChannelDefault) : Prop where
  channelStatistics : ch'.channelStatistics = ch.channelStatistics
  collects : ch'.collectChannelStatistics = ch.collectChannelStatistics

theorem SameStatistics.frame : Frame SameStatistics where
  refl _ := ⟨rfl, rfl⟩
  trans h h' :=
    ⟨h'.channelStatistics.trans h.channelStatistics, h'.collects.trans h.collects⟩
  add _ _ _ _ _ := ⟨rfl, rfl⟩

theorem configureEnforcementObject_sameStatistics {ch ch' : ChannelDefault} {objectId config : Int}
    {configurations : List Int} {status : PStatus}
    (h : ch.configureEnforcementObject objectId config configurations = .ok (ch', status)) :
    SameStatistics ch ch' := by
  obtain ⟨rfl, _⟩ | ⟨_, _, _, _, _, _, rfl⟩ := configureEnforcementObject_cases h
  · exact ⟨rfl, rfl⟩
  · exact ⟨rfl, rfl⟩

end ChannelDefault

open ChannelDefault (SameStatistics)

/-- An operation that does not collect is answered with an ACK, and no statistics change. -/
theorem Southbound.handleControlOperation_sameStatistics {env : Environment} {stage : Stage}
    {handled : Handled} {received : List UInt8} {operation : ControlOperation}
    (hgeneral : operation.type ≠ some .collectStats)
    (hdetailed : operation.type ≠ some .collectDetailedStats)
    (h : handleControlOperation opt hash env operation received stage = .ok handled) :
    Acked SameStatistics stage handled := by
  by_cases hrule : operation.type = some .createEnfRule
  · simp only [handleControlOperation, hrule] at h
    obtain ⟨hreplies, ⟨_, hkeeps⟩ | ⟨rule, status, _, he⟩⟩ :=
      createEnforcementRule_cases SameStatistics.frame hrule h
    · exact ⟨hkeeps, hreplies⟩
    · exact ⟨.onChannel SameStatistics.frame
        (fun _ _ hw => ChannelDefault.configureEnforcementObject_sameStatistics hw) he, hreplies⟩
  · exact handleControlOperation_acked SameStatistics.frame hrule hgeneral hdetailed h

/-! ## Operations that collect -/

/-- The windowed metric of a channel, with the instant at which it was taken. -/
def windowOf (readings : Readings) (channelId : Int) : ControlReply → Option (ℚ × ℚ)
  | .channelStats raw =>
    if raw.channelId = channelId then some ((readings channelId).1, raw.windowedMetricValue)
    else none
  | _ => none

/-- The windows of a channel in what is sent to the control plane. -/
def windowsOf (readings : Readings) (channelId : Int) (raws : List ChannelStatsRaw) :
    List (ℚ × ℚ) :=
  (raws.map .channelStats).filterMap (windowOf readings channelId)

theorem windowsOf_cons (readings : Readings) (channelId : Int) (raw : ChannelStatsRaw)
    (raws : List ChannelStatsRaw) :
    windowsOf readings channelId (raw :: raws) =
      (if raw.channelId = channelId then
          [(((readings channelId).1 : ℚ), raw.windowedMetricValue)] else []) ++
        windowsOf readings channelId raws := by
  simp only [windowsOf, List.map_cons, List.filterMap_cons, windowOf]
  by_cases hid : raw.channelId = channelId
  · simp [hid]
  · simp [hid]

namespace Core

variable {readings : Readings} {core core' : Core} {channelId : Int} {token : UInt32}
  {channel : ChannelDefault}

/-- The channel of an identifier collects, and its statistics are sent under this identifier. -/
theorem collectChannelStatistics_ok {raw : ChannelStatsRaw}
    (h : core.collectChannelStatistics readings channelId = .ok (core', .ok, raw)) :
    ∃ token channel, core.channelIdToTokenLinkers.lookup channelId = some token ∧
      core.selectChannel token = some channel ∧
      channel.channelStatistics.lastCollectionTime < (readings channelId).1 ∧
      raw = (channel.channelStatistics.collect (readings channelId).1 (readings channelId).2
        { channelId := channelId }).2 ∧
      core' = core.setChannel token { channel with
        channelStatistics := (channel.channelStatistics.collect (readings channelId).1
          (readings channelId).2 { channelId := channelId }).1 } := by
  simp only [collectChannelStatistics, collectOn] at h
  split at h
  · cases h
  · rename_i htoken
    have hl := core.lookup_getChannelDiffToken htoken
    split at h
    · rename_i channel hsel
      split at h
      · rename_i channel' status value hw
        cases h
        simp only [ChannelDefault.collectGeneralStatistics] at hw
        split at hw
        · split at hw
          · rename_i hnow
            cases hw
            exact ⟨_, channel, hl, hsel, hnow, rfl, rfl⟩
          · cases hw
        · cases hw
      · cases h
    · cases h

/-- What a collection does to a channel: it is not collected and stays as it is, or the window that
is sent for it is a reading of its meter. -/
inductive Window (readings : Readings) (channelId : Int) (channel : ChannelDefault) :
    ChannelDefault → List (ℚ × ℚ) → Prop
  | none : Window readings channelId channel channel []
  | taken {raw : ChannelStatsRaw} {later : Int}
      (hnow : channel.channelStatistics.lastCollectionTime < (readings channelId).1) :
      Window readings channelId channel
        { channel with
          channelStatistics :=
            (channel.channelStatistics.collect (readings channelId).1 later raw).1 }
        [((readings channelId).1,
          (channel.channelStatistics.collect (readings channelId).1 later raw).2.windowedMetricValue)]

/-- The loop over the identifiers, when every one of them is collected. -/
theorem collectLoop_window (hl : core.channelIdToTokenLinkers.lookup channelId = some token)
    (hunique : ∀ id, core.channelIdToTokenLinkers.lookup id = some token → id = channelId)
    (hsel : core.selectChannel token = some channel) {ids : List Int} (hnodup : ids.Nodup)
    {status : PStatus} {values : List (Int × ChannelStatsRaw)}
    (h : collectLoop (collectChannelStatistics readings) ids status core =
      .ok (core', .ok, values)) :
    core'.channelIdToTokenLinkers = core.channelIdToTokenLinkers ∧
      ∃ channel', core'.selectChannel token = some channel' ∧
        (channelId ∉ ids → channel' = channel ∧
          windowsOf readings channelId (values.map Prod.snd) = []) ∧
        Window readings channelId channel channel'
          (windowsOf readings channelId (values.map Prod.snd)) := by
  induction ids generalizing core channel status values with
  | nil =>
    cases h
    exact ⟨rfl, channel, hsel, fun _ => ⟨rfl, rfl⟩, .none⟩
  | cons id rest ih =>
    obtain ⟨hid, hnodup⟩ := List.nodup_cons.mp hnodup
    simp only [collectLoop] at h
    split at h
    · cases h
    · rename_i core₁ status₁ raw hcollect
      split at h
      · rename_i hok
        rw [PStatus.isOk_iff.mp hok] at hcollect
        split at h
        · rename_i core₂ status₂ values₂ hrest
          cases h
          obtain ⟨token₁, channel₁, hl₁, hsel₁, hnow, rfl, rfl⟩ :=
            collectChannelStatistics_ok hcollect
          by_cases hsame : id = channelId
          · -- the channel is collected now, and not again in the rest
            subst hsame
            cases hl.symm.trans hl₁
            cases hsel.symm.trans hsel₁
            obtain ⟨hlinkers, channel', hsel', hothers, _⟩ :=
              @ih (core.setChannel token _) _ hl hunique (selectChannel_setChannel_self _ _ _)
                hnodup _ _ hrest
            obtain ⟨rfl, hnone⟩ := hothers hid
            refine ⟨hlinkers, _, hsel', fun hnot => absurd List.mem_cons_self hnot, ?_⟩
            simp only [List.map_cons, windowsOf_cons, hnone, ChannelStatistics.collect_channelId,
              if_true, List.append_nil]
            exact .taken hnow
          · have hne : token ≠ token₁ := by
              rintro rfl
              exact hsame (hunique id hl₁)
            obtain ⟨hlinkers, channel', hsel', hothers, hwindow⟩ :=
              @ih (core.setChannel token₁ _) _ hl hunique
                ((selectChannel_setChannel_ne hne _ _).trans hsel) hnodup _ _ hrest
            have hskip : windowsOf readings channelId
                (List.map Prod.snd ((id, (channel₁.channelStatistics.collect (readings id).1
                  (readings id).2 { channelId := id }).2) :: values₂)) =
                windowsOf readings channelId (values₂.map Prod.snd) := by
              rw [List.map_cons, windowsOf_cons]
              exact if_neg hsame ▸ List.nil_append _
            rw [hskip]
            exact ⟨hlinkers, channel', hsel',
              fun hnot => hothers fun hmem => hnot (List.mem_cons_of_mem id hmem), hwindow⟩
        · cases h
      · rename_i hok
        cases h
        exact absurd rfl hok

/-- One channel, or all of them. -/
theorem collectFrom_window (hids : (AssocList.keys core.channelIdToTokenLinkers).Nodup)
    (hl : core.channelIdToTokenLinkers.lookup channelId = some token)
    (hunique : ∀ id, core.channelIdToTokenLinkers.lookup id = some token → id = channelId)
    (hsel : core.selectChannel token = some channel) {requested : Int}
    {values : List (Int × ChannelStatsRaw)}
    (h : collectFrom (collectChannelStatistics readings) core requested =
      .ok (core', .ok, values)) :
    core'.channelIdToTokenLinkers = core.channelIdToTokenLinkers ∧
      ∃ channel', core'.selectChannel token = some channel' ∧
        Window readings channelId channel channel'
          (windowsOf readings channelId (values.map Prod.snd)) := by
  have hloop : ∀ ids : List Int, ids.Nodup →
      collectLoop (collectChannelStatistics readings) ids .error core = .ok (core', .ok, values) →
      core'.channelIdToTokenLinkers = core.channelIdToTokenLinkers ∧
        ∃ channel', core'.selectChannel token = some channel' ∧
          Window readings channelId channel channel'
            (windowsOf readings channelId (values.map Prod.snd)) := by
    intro ids hnodup hcollect
    obtain ⟨hlinkers, channel', hsel', _, hwindow⟩ :=
      collectLoop_window hl hunique hsel hnodup hcollect
    exact ⟨hlinkers, channel', hsel', hwindow⟩
  simp only [collectFrom] at h
  split at h
  · exact hloop _ (List.nodup_singleton requested) h
  · split at h
    · exact hloop _ (hids.sublist (List.take_sublist _ _)) h
    · cases h

end Core

/-! ## The life of a stage -/

namespace Stage

/-- The channel that serves a request, by its token, and the request. -/
def servedBy (hash : String → UInt32) (stage : Stage) (context : Context) :
    List (UInt32 × Context) :=
  if stage.ready = true ∧ (stage.channelOf hash context).isSome then
    [(stage.agent.core.channelToken hash context.channelTuple, context)]
  else []

/-- Requests of the application and control operations in any order, with the requests that were
served and what was sent to the control plane. An operation that is answered with nothing ends the
connection. The aggregated statistics do not tell the channels apart, and are left out. -/
inductive Life (opt : Options) (hash : String → UInt32) (stage₀ : Stage) :
    Stage → List (UInt32 × Context) → List (Readings × List ControlReply) → Prop
  | start : Life opt hash stage₀ stage₀ [] []
  | request {stage stage' : Stage} {served : List (UInt32 × Context)}
      {sent : List (Readings × List ControlReply)} {clock : Clock} {fuel : Nat}
      {context : Context} {buffer : Buffer} {size : Nat} {result result' : Result}
      {status : PStatus} (h : Life opt hash stage₀ stage served sent)
      (he : stage.enforceRequest opt hash clock fuel context buffer size result =
        .ok (stage', status, result')) :
      Life opt hash stage₀ stage' (served ++ stage.servedBy hash context) sent
  | handled {stage : Stage} {served : List (UInt32 × Context)}
      {sent : List (Readings × List ControlReply)} {env : Environment}
      {operation : ControlOperation} {received : List UInt8} {handled : Handled}
      (h : Life opt hash stage₀ stage served sent)
      (hdetailed : operation.type ≠ some .collectDetailedStats)
      (hclock : ∀ channelId, (env.readings channelId).1 < 2 ^ 64)
      (hh : Southbound.handleControlOperation opt hash env operation received stage = .ok handled)
      (hvalue : 0 < handled.value) :
      Life opt hash stage₀ handled.stage served (sent ++ [(env.readings, handled.replies)])

/-- What requests have added to the windows of a channel. -/
def amountOf (opt : Options) (token : UInt32) (served : List (UInt32 × Context)) : ℚ :=
  ((served.filter fun e => e.1 = token).map fun e =>
    ((ChannelDefault.statisticValue opt e.2).toNat : ℚ)).sum

/-- The windows of a channel that were sent. -/
def windowsSent (channelId : Int) (sent : List (Readings × List ControlReply)) : List (ℚ × ℚ) :=
  sent.flatMap fun e => e.2.filterMap (windowOf e.1 channelId)

variable {stage₀ stage stage' : Stage} {served : List (UInt32 × Context)}
  {sent : List (Readings × List ControlReply)} {channelId : Int} {token : UInt32}
  {channel₀ channel : ChannelDefault}

theorem Life.reachable (hreach : Reachable opt hash stage₀)
    (h : Life opt hash stage₀ stage served sent) : Reachable opt hash stage := by
  induction h with
  | start => exact hreach
  | request _ he ih => exact ih.request he
  | handled _ _ _ hh _ ih => exact ih.handled hh

theorem amountOf_append (served served' : List (UInt32 × Context)) :
    amountOf opt token (served ++ served') =
      amountOf opt token served + amountOf opt token served' := by
  rw [amountOf, List.filter_append, List.map_append, List.sum_append]
  rfl

theorem amountOf_nonneg (served : List (UInt32 × Context)) : 0 ≤ amountOf opt token served := by
  refine List.sum_nonneg fun x hx => ?_
  obtain ⟨e, _, rfl⟩ := List.mem_map.mp hx
  exact Nat.cast_nonneg _

theorem windowsSent_concat (sent : List (Readings × List ControlReply)) (readings : Readings)
    (replies : List ControlReply) :
    windowsSent channelId (sent ++ [(readings, replies)]) =
      windowsSent channelId sent ++ replies.filterMap (windowOf readings channelId) := by
  rw [windowsSent, List.flatMap_append, List.flatMap_singleton]
  rfl

/-- The channel as the meter that it was, run by the requests it served and the windows that were
sent for it. -/
structure Metered (opt : Options) (channelId : Int) (token : UInt32) (channel₀ : ChannelDefault)
    (stage : Stage) (served : List (UInt32 × Context))
    (sent : List (Readings × List ControlReply)) (channel : ChannelDefault) : Prop where
  linked : stage.agent.core.channelIdToTokenLinkers.lookup channelId = some token
  selected : stage.agent.core.selectChannel token = some channel
  collects : channel.collectChannelStatistics = true
  last_nonneg : 0 ≤ channel.channelStatistics.lastCollectionTime
  scale : channel.channelStatistics.scale = channel₀.channelStatistics.scale
  runs : Meter.Runs channel₀.channelStatistics.scale channel₀.channelStatistics.meter
    channel.channelStatistics.meter (windowsSent channelId sent) (amountOf opt token served)

/-- The identifier of a token is its only one. -/
theorem Reachable.unique_id (hreach : Reachable opt hash stage)
    (hl : stage.agent.core.channelIdToTokenLinkers.lookup channelId = some token) :
    ∀ id, stage.agent.core.channelIdToTokenLinkers.lookup id = some token → id = channelId :=
  fun _ hid => hreach.sound.windowed.id_unique (AssocList.mem_of_lookup hid)
    (AssocList.mem_of_lookup hl)

theorem Metered.start (hl : stage₀.agent.core.channelIdToTokenLinkers.lookup channelId = some token)
    (hsel : stage₀.agent.core.selectChannel token = some channel₀)
    (hcollects : channel₀.collectChannelStatistics = true)
    (hlast : 0 ≤ channel₀.channelStatistics.lastCollectionTime) :
    Metered opt channelId token channel₀ stage₀ [] [] channel₀ :=
  ⟨hl, hsel, hcollects, hlast, rfl, .start⟩

theorem Metered.request (h : Metered opt channelId token channel₀ stage served sent channel)
    {clock : Clock} {fuel : Nat} {context : Context} {buffer : Buffer} {size : Nat}
    {result result' : Result} {status : PStatus}
    (hfits : channel₀.channelStatistics.meter.pending +
      amountOf opt token (served ++ stage.servedBy hash context) < 2 ^ 64)
    (he : stage.enforceRequest opt hash clock fuel context buffer size result =
      .ok (stage', status, result')) :
    ∃ channel', Metered opt channelId token channel₀ stage'
      (served ++ stage.servedBy hash context) sent channel' := by
  unfold enforceRequest at he
  split at he
  · rename_i hready
    split at he
    · rename_i core result'' hcore
      cases he
      obtain ⟨hnone, rfl, _⟩ | ⟨other, other', hother, hw, rfl⟩ :=
        Core.enforceRequest_cases opt hash hcore
      · -- no channel, and nothing is counted
        have hserved : stage.servedBy hash context = [] := by
          refine if_neg ?_
          rintro ⟨_, hsome⟩
          rw [channelOf, Core.channelToken, hnone] at hsome
          cases hsome
        rw [hserved, List.append_nil]
        exact ⟨channel, h⟩
      · have hserved : stage.servedBy hash context =
            [(stage.agent.core.channelToken hash context.channelTuple, context)] := by
          refine if_pos ⟨hready, ?_⟩
          rw [channelOf, Core.channelToken, hother]
          rfl
        rw [hserved, amountOf_append] at hfits
        rw [hserved]
        by_cases htoken : token = stage.agent.core.channelToken hash context.channelTuple
        · subst htoken
          cases h.selected.symm.trans hother
          obtain ⟨channel₁, hstatistics, hsame, hrecord⟩ :=
            ChannelDefault.channelEnforce_records hw
          have hamount : amountOf opt (stage.agent.core.channelToken hash context.channelTuple)
              [(stage.agent.core.channelToken hash context.channelTuple, context)] =
                (ChannelDefault.statisticValue opt context).toNat := by
            simp [amountOf]
          have hpending := h.runs.pending_le
            (ChannelStatistics.sumCounters_nonneg channel₀.channelStatistics.windowedCounter)
          rw [hamount] at hfits
          obtain ⟨hmeter, hscale, hlast, hcollects⟩ := ChannelDefault.recordStatistics_adds
            (hsame.trans h.collects) hrecord (by rw [hstatistics]; linarith)
          rw [hstatistics] at hmeter hscale hlast
          refine ⟨other', h.linked, Core.selectChannel_setChannel_self _ _ _, hcollects,
            hlast ▸ h.last_nonneg, hscale.trans h.scale, ?_⟩
          rw [hmeter, amountOf_append, hamount]
          exact h.runs.add (Nat.cast_nonneg _)
        · have hamount : amountOf opt token
              [(stage.agent.core.channelToken hash context.channelTuple, context)] = 0 := by
            simp [amountOf, Ne.symm htoken]
          refine ⟨channel, h.linked,
            (Core.selectChannel_setChannel_ne htoken _ _).trans h.selected, h.collects,
            h.last_nonneg, h.scale, ?_⟩
          rw [amountOf_append, hamount, add_zero]
          exact h.runs
    · cases he
  · rename_i hready
    cases he
    have hserved : stage.servedBy hash context = [] := if_neg fun hserves => hready hserves.1
    rw [hserved, List.append_nil]
    exact ⟨channel, h⟩

theorem Metered.keeps (h : Metered opt channelId token channel₀ stage served sent channel)
    (hkeeps : stage.agent.core.KeepsChannels SameStatistics stage'.agent.core) :
    ∃ channel', Metered opt channelId token channel₀ stage' served sent channel' := by
  obtain ⟨channel', hsel, hsame⟩ := hkeeps.channels token channel h.selected
  refine ⟨channel', hkeeps.linked channelId token h.linked, hsel, hsame.collects.trans h.collects,
    ?_, ?_, ?_⟩
  · rw [hsame.channelStatistics]
    exact h.last_nonneg
  · rw [hsame.channelStatistics]
    exact h.scale
  · rw [hsame.channelStatistics]
    exact h.runs

/-- A window that is sent is a reading of the meter. -/
theorem Metered.window (h : Metered opt channelId token channel₀ stage served sent channel)
    {readings : Readings} (hclock : (readings channelId).1 < 2 ^ 64) {channel' : ChannelDefault}
    {windows : List (ℚ × ℚ)} (hwindow : Core.Window readings channelId channel channel' windows) :
    channel'.collectChannelStatistics = true ∧
      0 ≤ channel'.channelStatistics.lastCollectionTime ∧
      channel'.channelStatistics.scale = channel₀.channelStatistics.scale ∧
      Meter.Runs channel₀.channelStatistics.scale channel₀.channelStatistics.meter
        channel'.channelStatistics.meter (windowsSent channelId sent ++ windows)
        (amountOf opt token served) := by
  cases hwindow with
  | none =>
    rw [List.append_nil]
    exact ⟨h.collects, h.last_nonneg, h.scale, h.runs⟩
  | @taken raw later hnow =>
    obtain ⟨hmeter, hvalue⟩ :=
      ChannelStatistics.collect_reads later raw h.last_nonneg hnow hclock
    refine ⟨h.collects, h.last_nonneg.trans hnow.le, h.scale, ?_⟩
    rw [hmeter]
    rw [h.scale] at hvalue
    exact h.runs.read hvalue

end Stage

/-- A collection that is answered sends the statistics of the channels that it has visited. -/
theorem Southbound.collectStatistics_answered {env : Environment} {operation : ControlOperation}
    {received : List UInt8} {stage : Stage} {handled : Handled}
    (h : collectStatistics env operation received stage = .ok handled)
    (hvalue : 0 < handled.value) :
    ∃ requested core values first,
      Core.collectFrom (Core.collectChannelStatistics env.readings) stage.agent.core requested =
        .ok (core, .ok, values) ∧
      handled.stage.agent.core = core ∧
      handled.replies = .collectStatistics first :: (values.map Prod.snd).map .channelStats := by
  simp only [collectStatistics] at h
  split at h
  · cases h
  · split at h
    · cases h
    · rename_i metadata _
      split at h
      · cases h
      · rename_i agent status channelStats hcollect
        split at h
        · rename_i hok
          rw [PStatus.isOk_iff.mp hok] at hcollect
          split at h
          · cases h
          · cases h
            unfold Agent.collectChannelStatistics at hcollect
            split at hcollect
            · rename_i core status' values hfrom
              cases hcollect
              exact ⟨_, core, values, _, hfrom, rfl, rfl⟩
            · cases hcollect
        · cases h
          exact absurd hvalue (lt_irrefl _)

namespace Stage

theorem Metered.handled (hreach : Reachable opt hash stage)
    (h : Metered opt channelId token channel₀ stage served sent channel) {env : Environment}
    {operation : ControlOperation} {received : List UInt8} {handled : Handled}
    (hdetailed : operation.type ≠ some .collectDetailedStats)
    (hclock : ∀ channelId, (env.readings channelId).1 < 2 ^ 64)
    (hh : Southbound.handleControlOperation opt hash env operation received stage = .ok handled)
    (hvalue : 0 < handled.value) :
    ∃ channel', Metered opt channelId token channel₀ handled.stage served
      (sent ++ [(env.readings, handled.replies)]) channel' := by
  by_cases hgeneral : operation.type = some .collectStats
  · simp only [Southbound.handleControlOperation, hgeneral] at hh
    obtain ⟨requested, core, values, first, hfrom, rfl, hreplies⟩ :=
      Southbound.collectStatistics_answered hh hvalue
    obtain ⟨hlinkers, channel', hsel', hwindow⟩ := Core.collectFrom_window
      hreach.sound.windowed.ids_nodup h.linked (hreach.unique_id h.linked) h.selected hfrom
    obtain ⟨hcollects, hlast, hscale, hruns⟩ := h.window (hclock channelId) hwindow
    have hwindows : handled.replies.filterMap (windowOf env.readings channelId) =
        windowsOf env.readings channelId (values.map Prod.snd) := by
      rw [hreplies]
      rfl
    refine ⟨channel', hlinkers ▸ h.linked, hsel', hcollects, hlast, hscale, ?_⟩
    rw [windowsSent_concat, hwindows]
    exact hruns
  · obtain ⟨hkeeps, code, hreplies⟩ :=
      Southbound.handleControlOperation_sameStatistics hgeneral hdetailed hh
    obtain ⟨channel', h'⟩ := h.keeps hkeeps
    refine ⟨channel', h'.linked, h'.selected, h'.collects, h'.last_nonneg, h'.scale, ?_⟩
    rw [windowsSent_concat, hreplies]
    exact (List.append_nil (windowsSent channelId sent)).symm ▸ h'.runs

/-- The life of a stage is, for each of its channels, a run of a meter. -/
theorem Life.metered (hreach : Reachable opt hash stage₀)
    (hl : stage₀.agent.core.channelIdToTokenLinkers.lookup channelId = some token)
    (hsel : stage₀.agent.core.selectChannel token = some channel₀)
    (hcollects : channel₀.collectChannelStatistics = true)
    (hlast : 0 ≤ channel₀.channelStatistics.lastCollectionTime)
    (h : Life opt hash stage₀ stage served sent)
    (hfits : channel₀.channelStatistics.meter.pending + amountOf opt token served < 2 ^ 64) :
    ∃ channel, Metered opt channelId token channel₀ stage served sent channel := by
  induction h with
  | start => exact ⟨channel₀, .start hl hsel hcollects hlast⟩
  | @request stage stage' served sent clock fuel context buffer size result result' status _ he
      ih =>
    have hbefore : amountOf opt token served ≤
        amountOf opt token (served ++ stage.servedBy hash context) := by
      rw [amountOf_append]
      exact le_add_of_nonneg_right (amountOf_nonneg _)
    obtain ⟨channel, hm⟩ := ih (by linarith)
    exact hm.request hfits he
  | handled h hdetailed hclock hh hvalue ih =>
    obtain ⟨channel, hm⟩ := ih hfits
    exact hm.handled (h.reachable hreach) hdetailed hclock hh hvalue

/-- From any reachable stage on, whatever the application and the control plane do: the windows that
were sent for a channel, each rate times its interval, and what is in its windows now are what was
in its windows at first and what requests have added since. -/
theorem told_accounts (hreach : Reachable opt hash stage₀)
    (hl : stage₀.agent.core.channelIdToTokenLinkers.lookup channelId = some token)
    (hsel : stage₀.agent.core.selectChannel token = some channel₀)
    (hcollects : channel₀.collectChannelStatistics = true)
    (hlast : 0 ≤ channel₀.channelStatistics.lastCollectionTime)
    (h : Life opt hash stage₀ stage served sent)
    (hfits : sumCounters channel₀.channelStatistics.windowedCounter +
      amountOf opt token served < 2 ^ 64) :
    ∃ channel, stage.agent.core.selectChannel token = some channel ∧
      Meter.told channel₀.channelStatistics.scale channel₀.channelStatistics.lastCollectionTime
          (windowsSent channelId sent) +
          sumCounters channel.channelStatistics.windowedCounter =
        sumCounters channel₀.channelStatistics.windowedCounter + amountOf opt token served := by
  obtain ⟨channel, hm⟩ := h.metered hreach hl hsel hcollects hlast hfits
  exact ⟨channel, hm.selected, hm.runs.told_add_pending⟩

/-- A stage that serves a request for an amount of bytes. -/
def serve (stage : Stage) (size : UInt64) : Except Fault (Stage × PStatus × Result) :=
  stage.enforceRequest {} numeralHash (fun _ => 0) 0 { operationSize := size, totalOperations := 1 }
    none 0 {}

/-- One channel that has served ten bytes. -/
def afterTen : Stage :=
  match (readyStage 1).serve 10 with
  | .ok (stage, _, _) => stage
  | .error _ => readyStage 1

/-- It is collected after one second. -/
def collectOnce (stage : Stage) : Except Break Handled :=
  Southbound.handleControlOperation {} numeralHash { readings := fun _ => (1000000, 1000000) }
    { operationType := 2, size := 16 } (CollectStatisticsMetadata.layout.encode { channelId := 1 })
    stage

def afterSecond : Handled :=
  match afterTen.collectOnce with
  | .ok handled => handled
  | .error _ => .ack afterTen false

/-- Ten bytes, a collection after one second, and five bytes that are still in the window. -/
theorem told_accounts_two :
    ∃ stage served sent channel, Life {} numeralHash (readyStage 1) stage served sent ∧
      windowsSent 1 sent = [(1000000, 10)] ∧ amountOf {} 0 served = 15 ∧
      stage.agent.core.selectChannel 0 = some channel ∧
      Meter.told (fun interval => interval / 1000 / 1000) 0 (windowsSent 1 sent) +
        sumCounters channel.channelStatistics.windowedCounter = 0 + amountOf {} 0 served := by
  have hten : (readyStage 1).serve 10 = .ok (afterTen, .enforced, _) := rfl
  have hsecond : afterTen.collectOnce = .ok afterSecond := rfl
  have hreplies : afterSecond.replies.filterMap (windowOf (fun _ => (1000000, 1000000)) 1) =
      [(1000000, 10)] := by decide +kernel
  obtain ⟨⟨stage, status, result⟩, hfive⟩ : ∃ out, afterSecond.stage.serve 5 = .ok out := ⟨_, rfl⟩
  have hlife := ((Life.start.request hten).handled (by decide)
    (fun _ => show (1000000 : Int) < 2 ^ 64 by decide) hsecond (by decide)).request hfive
  have hl : (readyStage 1).agent.core.channelIdToTokenLinkers.lookup 1 = some 0 := rfl
  obtain ⟨channel₀, hsel₀, hcollects, hlast, hscale, hempty⟩ : ∃ channel₀,
      (readyStage 1).agent.core.selectChannel 0 = some channel₀ ∧
      channel₀.collectChannelStatistics = true ∧
      channel₀.channelStatistics.lastCollectionTime = 0 ∧
      channel₀.channelStatistics.scale = (fun interval => interval / 1000 / 1000) ∧
      sumCounters channel₀.channelStatistics.windowedCounter = 0 :=
    ⟨_, rfl, rfl, rfl, rfl, by decide +kernel⟩
  obtain ⟨channel, hsel, htold⟩ := told_accounts (reachable_readyStage 1) hl hsel₀ hcollects
    hlast.ge hlife (hempty ▸ by decide +kernel)
  rw [hscale, hlast, hempty] at htold
  refine ⟨_, _, _, channel, hlife, ?_, by decide +kernel, hsel, htold⟩
  rw [windowsSent_concat]
  exact hreplies

end Stage

end Paio
