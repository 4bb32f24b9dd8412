import Paio.Southbound

/-!
# Paio.MessageSizes

The counts that the handlers of control operations pass to `socket_read` and `socket_write`, beside
the sizes of the structures they are read into and written from. A reply is written with the size
of its structure. What is read with an operation, and the number of channels that
`collect_statistics` announces, take the count from the header: `m_size` is an `int` that becomes a
`size_t` unchecked, so that a negative one is huge.

`transfers_eq` says that a handler that comes back has read its structure and written its replies.
-/

namespace Paio

open StructLayout

/-- A call of `socket_read` or `socket_write` on a structure. -/
structure Transfer where
  structureSize : Nat
  count : UInt64
  deriving DecidableEq, Repr

namespace Transfer

/-- The call stays inside the structure. -/
def Fits (t : Transfer) : Prop := t.count.toNat ≤ t.structureSize

instance (t : Transfer) : Decidable t.Fits := inferInstanceAs (Decidable (_ ≤ _))

/-- The count is the `m_size` of the operation. -/
def requested (operation : ControlOperation) (structureSize : Nat) : Transfer where
  structureSize := structureSize
  count := UInt64.ofInt operation.size

/-- The count is the `sizeof` of the structure. -/
def whole (structureSize : Nat) : Transfer where
  structureSize := structureSize
  count := UInt64.ofNat structureSize

theorem fits_whole {n : Nat} (h : n < 2 ^ 64) : (whole n).Fits := by
  rw [Fits, whole, UInt64.toNat_ofNat', Nat.mod_eq_of_lt h]

/-- A negative `int` becomes a count that no structure has. -/
theorem fits_requested_iff {operation : ControlOperation} (h : IsSigned 32 operation.size)
    {n : Nat} (hn : n < 2 ^ 32) :
    (requested operation n).Fits ↔ 0 ≤ operation.size ∧ operation.size ≤ n := by
  obtain ⟨hlow, hhigh⟩ := h
  have hcount : (UInt64.ofInt operation.size).toNat =
      (operation.size % 2 ^ 64).toNat % 2 ^ 64 := UInt64.toNat_ofNat'
  simp only [Fits, requested, hcount]
  omega

theorem requested_eq_whole {operation : ControlOperation} {n : Nat} (h : operation.size = n) :
    requested operation n = whole n := by
  have hcount : UInt64.ofInt n = UInt64.ofNat n := by
    apply UInt64.toNat_inj.mp
    rw [UInt64.ofInt, UInt64.toNat_ofNat', UInt64.toNat_ofNat']
    omega
  rw [requested, whole, h, hcount]

end Transfer

/-- The structure that the handler of the operation reads with the count of its header. -/
def ControlOperation.structureRead (o : ControlOperation) : Option Nat :=
  match o.type with
  | some .markStageReady => some StageReadyRaw.layout.size
  | some .collectStats => some CollectStatisticsMetadata.layout.size
  | some .createHskRule =>
    match o.subtype with
    | some .hskCreateChannel => some HousekeepingCreateChannelRaw.layout.size
    | some .hskCreateObject => some HousekeepingCreateObjectRaw.layout.size
    | _ => none
  | some .createEnfRule => some EnforcementRuleRaw.layout.size
  | _ => none

/-- The header announces no more than the structure holds. -/
def ControlOperation.SizeFits (o : ControlOperation) : Prop :=
  ∀ n, o.structureRead = some n → 0 ≤ o.size ∧ o.size ≤ n

namespace Southbound

/-! ## What the handlers transfer -/

/-- The replies of a handler that comes back, each with its `sizeof`. -/
def written (out : Except Break Handled) : List Transfer :=
  match out with
  | .ok handled => handled.replies.map fun reply => .whole reply.size
  | .error _ => []

section

variable (opt : Options) (hash : String → UInt32) (env : Environment)

def markStageAsReadyTransfers (operation : ControlOperation) (received : List UInt8)
    (stage : Stage) : List Transfer :=
  .requested operation StageReadyRaw.layout.size :: written (markStageAsReady received stage)

/-- The structure with the number of channels is written with `m_size`, and the statistics follow
when that was its size. -/
def collectStatisticsTransfers (operation : ControlOperation) (received : List UInt8)
    (stage : Stage) : List Transfer :=
  .requested operation CollectStatisticsMetadata.layout.size ::
    if received = [] then []
    else
      match readInto CollectStatisticsMetadata.layout {} received with
      | .error _ => []
      | .ok metadata =>
        match stage.agent.collectChannelStatistics env.readings metadata.channelId with
        | .error _ => []
        | .ok (_, status, channelStats) =>
          if status.isOk then
            .requested operation CollectStatisticsMetadata.layout.size ::
              if operation.size ≠ CollectStatisticsMetadata.layout.size then []
              else channelStats.map fun raw => .whole (ControlReply.channelStats raw).size
          else []

def createHousekeepingRuleTransfers (operation : ControlOperation) (received : List UInt8)
    (stage : Stage) : List Transfer :=
  match operation.subtype with
  | some .hskCreateChannel =>
    .requested operation HousekeepingCreateChannelRaw.layout.size ::
      written (createHousekeepingRule opt hash env operation received stage)
  | some .hskCreateObject =>
    .requested operation HousekeepingCreateObjectRaw.layout.size ::
      written (createHousekeepingRule opt hash env operation received stage)
  | _ => written (createHousekeepingRule opt hash env operation received stage)

def createEnforcementRuleTransfers (operation : ControlOperation) (received : List UInt8)
    (stage : Stage) : List Transfer :=
  .requested operation EnforcementRuleRaw.layout.size ::
    written (createEnforcementRule received stage)

/-- The calls on the socket that the handler of the operation makes; the other handlers write their
replies only. -/
def transfers (operation : ControlOperation) (received : List UInt8) (stage : Stage) :
    List Transfer :=
  match operation.type with
  | some .markStageReady => markStageAsReadyTransfers operation received stage
  | some .collectStats => collectStatisticsTransfers env operation received stage
  | some .createHskRule => createHousekeepingRuleTransfers opt hash env operation received stage
  | some .createEnfRule => createEnforcementRuleTransfers operation received stage
  | _ => written (handleControlOperation opt hash env operation received stage)

end

variable {opt : Options} {hash : String → UInt32} {env : Environment} {stage : Stage}
  {operation : ControlOperation} {received : List UInt8}

/-! ## What a handler that comes back has transferred -/

theorem collectStatisticsTransfers_eq {handled : Handled}
    (h : collectStatistics env operation received stage = .ok handled) :
    collectStatisticsTransfers env operation received stage =
      .requested operation CollectStatisticsMetadata.layout.size ::
        handled.replies.map fun reply => .whole reply.size := by
  unfold collectStatistics at h
  unfold collectStatisticsTransfers
  split at h
  · cases h
  · rename_i hne
    rw [if_neg hne]
    cases hread : readInto CollectStatisticsMetadata.layout {} received with
    | error f =>
      rw [hread] at h
      cases h
    | ok metadata =>
      rw [hread] at h
      dsimp only at h ⊢
      cases hc : stage.agent.collectChannelStatistics env.readings metadata.channelId with
      | error f =>
        rw [hc] at h
        cases h
      | ok collected =>
        obtain ⟨agent, status, channelStats⟩ := collected
        rw [hc] at h
        dsimp only at h ⊢
        split at h
        · rename_i hok
          rw [if_pos hok]
          split at h
          · cases h
          · rename_i hsize
            cases h
            have hwhole : Transfer.requested operation CollectStatisticsMetadata.layout.size =
                .whole CollectStatisticsMetadata.layout.size :=
              Transfer.requested_eq_whole (not_not.mp hsize)
            simp only [if_neg hsize, hwhole, List.map_cons, List.map_map]
            rfl
        · rename_i hok
          cases h
          rw [if_neg hok]
          rfl

/-- A handler that comes back has read the structure of the operation, if it reads one, and written
its replies. -/
theorem transfers_eq {handled : Handled}
    (h : handleControlOperation opt hash env operation received stage = .ok handled) :
    transfers opt hash env operation received stage =
      (operation.structureRead.toList.map (Transfer.requested operation)) ++
        handled.replies.map fun reply => .whole reply.size := by
  have hwritten : written (handleControlOperation opt hash env operation received stage) =
      handled.replies.map fun reply => .whole reply.size := by rw [h]; rfl
  unfold handleControlOperation at h hwritten
  unfold transfers ControlOperation.structureRead
  cases htype : operation.type with
  | none => rw [htype] at h; cases h
  | some type =>
    simp only [htype] at h hwritten
    cases type with
    | markStageReady => exact congrArg (Transfer.requested operation _ :: ·) hwritten
    | collectStats => exact collectStatisticsTransfers_eq h
    | createEnfRule => exact congrArg (Transfer.requested operation _ :: ·) hwritten
    | createHskRule =>
      simp only [createHousekeepingRuleTransfers]
      cases hsub : operation.subtype with
      | none => exact hwritten
      | some subtype =>
        cases subtype with
        | hskCreateChannel => exact congrArg (Transfer.requested operation _ :: ·) hwritten
        | hskCreateObject => exact congrArg (Transfer.requested operation _ :: ·) hwritten
        | _ => exact hwritten
    | _ => simpa only [handleControlOperation, htype, Option.toList, List.map_nil,
        List.nil_append] using hwritten

/-! ## Whether they stay inside the structures -/

theorem size_lt (reply : ControlReply) : reply.size < 2 ^ 64 := by
  cases reply <;> simp [ControlReply.size]

theorem fits_written (out : Except Break Handled) : ∀ t ∈ written out, t.Fits := by
  intro t hmem
  cases out with
  | error b => cases hmem
  | ok handled =>
    obtain ⟨reply, -, rfl⟩ := List.mem_map.mp hmem
    exact Transfer.fits_whole (size_lt reply)

theorem fits_cons_written_iff {t : Transfer} {out : Except Break Handled} :
    (∀ t' ∈ t :: written out, t'.Fits) ↔ t.Fits := by
  rw [List.forall_mem_cons]
  exact and_iff_left (fits_written out)

/-- The count of the header is used for the structure that is read and again for the one that is
written, which has the same size. -/
theorem fits_collectStatisticsTransfers_iff :
    (∀ t ∈ collectStatisticsTransfers env operation received stage, t.Fits) ↔
      (Transfer.requested operation CollectStatisticsMetadata.layout.size).Fits := by
  have hstats : ∀ channelStats : List ChannelStatistics.ChannelStatsRaw,
      ∀ t ∈ channelStats.map fun raw => Transfer.whole (ControlReply.channelStats raw).size,
        t.Fits := by
    intro channelStats t hmem
    obtain ⟨raw, -, rfl⟩ := List.mem_map.mp hmem
    exact Transfer.fits_whole (size_lt _)
  unfold collectStatisticsTransfers
  rw [List.forall_mem_cons]
  refine and_iff_left_of_imp ?_
  intro hfits
  split
  · simp
  · split
    · simp
    · split
      · simp
      · split
        · rw [List.forall_mem_cons]
          refine ⟨hfits, ?_⟩
          split
          · simp
          · exact hstats _
        · simp

/-- For every header, the calls on the socket stay inside the structures exactly when the operation
reads none with the count of the header, or the count is at most its size and not negative. -/
theorem transfers_fit_iff (opt : Options) (hash : String → UInt32) (env : Environment)
    (operation : ControlOperation) (hsize : IsSigned 32 operation.size) (received : List UInt8)
    (stage : Stage) :
    (∀ t ∈ transfers opt hash env operation received stage, t.Fits) ↔ operation.SizeFits := by
  have hread : ∀ n, n < 2 ^ 32 → operation.structureRead = some n →
      ((Transfer.requested operation n).Fits ↔ operation.SizeFits) := by
    intro n hn hsome
    rw [Transfer.fits_requested_iff hsize hn, ControlOperation.SizeFits, hsome]
    simp
  have hnone : operation.structureRead = none → ∀ out : Except Break Handled,
      ((∀ t ∈ written out, t.Fits) ↔ operation.SizeFits) := by
    intro hnone out
    refine iff_of_true (fits_written out) ?_
    intro n hn
    rw [hnone] at hn
    cases hn
  unfold transfers
  cases htype : operation.type with
  | none => exact hnone (by rw [ControlOperation.structureRead, htype]) _
  | some type =>
    cases type with
    | markStageReady =>
      exact fits_cons_written_iff.trans
        (hread _ (by decide) (by rw [ControlOperation.structureRead, htype]))
    | collectStats =>
      exact fits_collectStatisticsTransfers_iff.trans
        (hread _ (by decide) (by rw [ControlOperation.structureRead, htype]))
    | createEnfRule =>
      exact fits_cons_written_iff.trans
        (hread _ (by decide) (by rw [ControlOperation.structureRead, htype]))
    | createHskRule =>
      simp only [createHousekeepingRuleTransfers]
      cases hsub : operation.subtype with
      | none => exact hnone (by rw [ControlOperation.structureRead, htype, hsub]) _
      | some subtype =>
        cases subtype with
        | hskCreateChannel =>
          exact fits_cons_written_iff.trans
            (hread _ (by decide) (by rw [ControlOperation.structureRead, htype, hsub]))
        | hskCreateObject =>
          exact fits_cons_written_iff.trans
            (hread _ (by decide) (by rw [ControlOperation.structureRead, htype, hsub]))
        | _ => exact hnone (by rw [ControlOperation.structureRead, htype, hsub]) _
    | _ => exact hnone (by rw [ControlOperation.structureRead, htype]) _

/-- `mark_stage_ready` with the size of its structure. -/
theorem transfers_fit_iff_markStageReady :
    IsSigned 32 1 ∧ ∀ t ∈ transfers {} numeralHash {} { operationType := 1, size := 1 } [1]
      { agent := { core := Core.new {} } }, t.Fits := by
  refine ⟨by decide, ?_⟩
  refine (transfers_fit_iff {} numeralHash {} _ (by decide) [1] _).mpr ?_
  intro n hn
  cases hn
  decide

/-- A `mark_stage_ready` that announces two bytes, or a negative number of them: the handler asks to
read more than its structure of one byte holds. -/
theorem announced_size_exceeds :
    (¬ ∀ t ∈ transfers {} numeralHash {} { operationType := 1, size := 2 } [1, 1]
      { agent := { core := Core.new {} } }, t.Fits) ∧
    ¬ ∀ t ∈ transfers {} numeralHash {} { operationType := 1, size := -1 } []
      { agent := { core := Core.new {} } }, t.Fits := by
  have htwo : ¬ (Transfer.requested { operationType := 1, size := 2 } 1).Fits := by decide
  have hnegative : ¬ (Transfer.requested { operationType := 1, size := -1 } 1).Fits := by decide
  exact ⟨fun h => htwo (h _ List.mem_cons_self), fun h => hnegative (h _ List.mem_cons_self)⟩

end Southbound

end Paio
