import Paio.StageState
import Paio.StatisticPositions

/-!
# Paio.StageInvariant

Properties of the registry of channels that hold in every reachable stage. A property is an
invariant when the default constructor gives it and it survives each way in which a call touches the
registry and each collection of a channel (`Core.Invariant`). The rules in the table do not matter to
it.

In particular every channel of a reachable stage comes from its constructor by calls and collections
(`Stage.Reachable.operated`), so that what holds over the runs of a channel holds there.
-/

namespace Paio

variable {opt : Options} {hash : String → UInt32}

namespace Core

/-- What the constructor gives, and calls and collections keep. -/
structure Invariant (opt : Options) (hash : String → UInt32) (P : Core → Prop) : Prop where
  new : P (Core.new opt)
  step : ∀ core core', P core → RegistryStep opt hash core core' → P core'
  collect : ∀ core token channel channel', P core → core.selectChannel token = some channel →
    ChannelDefault.Collected channel channel' → P (core.setChannel token channel')

variable {P : Core → Prop}

/-- A property of the registry alone does not depend on the table. -/
theorem Invariant.kept (hP : Invariant opt hash P) : Kept opt hash P where
  new := hP.new
  step core core' h hs _ := hP.step core core' h hs
  stage core _ h _ := hP.step core _ h (.keep rfl rfl)
  mark core _ h := hP.step core _ h (.keep rfl rfl)
  collect := hP.collect

/-- An invariant holds in every reachable stage. -/
theorem Invariant.reachable (hP : Invariant opt hash P) {stage : Stage}
    (h : Stage.Reachable opt hash stage) : P stage.agent.core :=
  hP.kept.reachable h

end Core

/-! ## The channels of a reachable stage -/

theorem ChannelDefault.CreatedFor.operated {channelId : Int} {ch : ChannelDefault}
    (h : CreatedFor opt hash channelId ch) : Operated opt hash ch := by
  obtain ⟨-, clock, he⟩ := h
  induction he with
  | refl => exact .new channelId clock
  | tail _ hstep ih => exact ih.step hstep

theorem ChannelDefault.Operated.collected {ch ch' : ChannelDefault} (h : Operated opt hash ch)
    (hc : Collected ch ch') : Operated opt hash ch' := by
  cases hc with
  | general hg => exact h.collectGeneral hg
  | detailed hd => exact h.collectDetailed hd

namespace Core

/-- Every channel is what calls and collections have made of a new one. -/
def Operated (opt : Options) (hash : String → UInt32) (core : Core) : Prop :=
  ∀ token channel, core.selectChannel token = some channel → channel.Operated opt hash

/-- A core that differs in one channel. -/
theorem Operated.insert {core core' : Core} {token : UInt32} {channel : ChannelDefault}
    (h : core.Operated opt hash) (hch : core'.channels = core.channels.insert token channel)
    (hchannel : channel.Operated opt hash) : core'.Operated opt hash := by
  intro token' channel' hsel
  rw [selectChannel, hch] at hsel
  by_cases ht : token' = token
  · subst ht
    rw [Finmap.lookup_insert] at hsel
    cases hsel
    exact hchannel
  · rw [Finmap.lookup_insert_of_ne _ ht] at hsel
    exact h token' channel' hsel

theorem invariant_operated (opt : Options) (hash : String → UInt32) :
    Invariant opt hash (Operated opt hash) where
  new := by
    intro token channel hsel
    rw [selectChannel, Core.new, Finmap.lookup_empty] at hsel
    cases hsel
  step := by
    intro core core' h hs
    cases hs with
    | keep hch _ =>
      intro token channel hsel
      rw [selectChannel, hch] at hsel
      exact h token channel hsel
    | work hsel hstep hch _ => exact h.insert hch ((h _ _ hsel).step hstep)
    | create _ _ hnew hch _ => exact h.insert hch hnew.operated
  collect := by
    intro core token channel channel' h hsel hc
    exact h.insert rfl ((h token channel hsel).collected hc)

end Core

theorem Stage.Reachable.operated {stage : Stage} (h : Stage.Reachable opt hash stage) :
    stage.agent.core.Operated opt hash :=
  (Core.invariant_operated opt hash).reachable h

end Paio
