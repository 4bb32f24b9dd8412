import Mathlib.Algebra.BigOperators.Group.Finset.Basic
import Mathlib.Algebra.BigOperators.Group.Finset.Piecewise
import Mathlib.Algebra.Order.BigOperators.Group.Finset
import Mathlib.Algebra.Order.Group.Multiset
import Mathlib.Data.Multiset.Fold
import Mathlib.Tactic.Abel
import Paio.Library.Linearizability

/-!
# Paio.Library.DeferredUpdates

Calls that do their work in a section under a lock and, after the lock was given back, bring some
counters up to date. The sections of different calls exclude each other; their updates may come in
any order, with sections of other calls between them.

When updates commute with each other and sections neither read nor write what they change, a call
takes effect in its section. `settled` is the state with all updates that are still owed. It moves
only with a section, and then as the whole call would move it alone; so every run is linearizable
in the order of the sections, and a state in which nobody owes an update is the one that the calls
leave one after the other (`linearizable`).
-/

namespace DeferredUpdates

open Linearizability

/-- `body` is the section: the state it leaves, the reply, and the updates it leaves to be made. -/
structure Component (σ κ ρ υ : Type) where
  body : σ → κ → σ × ρ × List υ
  update : υ → σ → σ
  update_comm : ∀ u v s, update u (update v s) = update v (update u s)
  body_update : ∀ u s op, body (update u s) op = (update u (body s op).1, (body s op).2)

variable {σ κ ρ υ θ : Type}

/-- Where a thread is: in no call, before its section, or behind it with what it owes. -/
inductive Pc (κ ρ υ : Type) where
  | idle
  | called (id : Nat) (op : κ)
  | owing (id : Nat) (updates : List υ) (reply : ρ)

def Pc.owed : Pc κ ρ υ → Multiset υ
  | .idle | .called _ _ => 0
  | .owing _ updates _ => updates

/-- The call that a thread is in. -/
def Pc.id : Pc κ ρ υ → Option Nat
  | .idle => none
  | .called id _ | .owing id _ _ => some id

structure Machine (σ κ ρ υ θ : Type) where
  state : σ
  threads : θ → Pc κ ρ υ := fun _ => .idle
  made : Nat := 0

/-- `finish` is the next update of a thread, or its return when there is none. -/
inductive Action (κ θ : Type) where
  | call (t : θ) (op : κ)
  | body (t : θ)
  | finish (t : θ)

namespace Component

variable (C : Component σ κ ρ υ)

instance : LeftCommutative C.update := ⟨C.update_comm⟩

/-- A call that is alone. -/
def apply (s : σ) (op : κ) : σ × ρ :=
  let out := C.body s op
  (out.2.2.foldr C.update out.1, out.2.1)

section

variable [DecidableEq θ]

def step (m : Machine σ κ ρ υ θ) : Action κ θ → Option (Machine σ κ ρ υ θ)
  | .call t op =>
    match m.threads t with
    | .idle => some { m with
        threads := Function.update m.threads t (.called m.made op)
        made := m.made + 1 }
    | _ => none
  | .body t =>
    match m.threads t with
    | .called id op =>
      let out := C.body m.state op
      some { m with
        state := out.1
        threads := Function.update m.threads t (.owing id out.2.2 out.2.1) }
    | _ => none
  | .finish t =>
    match m.threads t with
    | .owing id (u :: updates) reply => some { m with
        state := C.update u m.state
        threads := Function.update m.threads t (.owing id updates reply) }
    | .owing _ [] _ => some { m with threads := Function.update m.threads t .idle }
    | _ => none

end

/-- What is seen of a step from outside. -/
def observe (m : Machine σ κ ρ υ θ) : Action κ θ → List (Event Nat κ ρ)
  | .call _ op => [.call m.made op]
  | .body _ => []
  | .finish t =>
    match m.threads t with
    | .owing id [] reply => [.ret id reply]
    | _ => []

def HistoryNext [DecidableEq θ] (before after : Machine σ κ ρ υ θ × List (Event Nat κ ρ)) : Prop :=
  ∃ a, C.step before.1 a = some after.1 ∧ after.2 = before.2 ++ observe before.1 a

/-- The machine and its history after some steps from a state that nobody uses. -/
abbrev Runs [DecidableEq θ] (s₀ : σ) (m : Machine σ κ ρ υ θ) (h : List (Event Nat κ ρ)) : Prop :=
  Relation.ReflTransGen C.HistoryNext ({ state := s₀ }, []) (m, h)

/-- The state and the history that some actions lead to. -/
def run [DecidableEq θ] (out : Machine σ κ ρ υ θ × List (Event Nat κ ρ)) :
    List (Action κ θ) → Option (Machine σ κ ρ υ θ × List (Event Nat κ ρ))
  | [] => some out
  | a :: actions =>
    match C.step out.1 a with
    | some m => run (m, out.2 ++ observe out.1 a) actions
    | none => none

variable {C}

theorem runs_run [DecidableEq θ] {actions : List (Action κ θ)}
    {out out' : Machine σ κ ρ υ θ × List (Event Nat κ ρ)} (h : C.run out actions = some out') :
    Relation.ReflTransGen C.HistoryNext out out' := by
  induction actions generalizing out with
  | nil =>
    cases h
    exact .refl
  | cons a actions ih =>
    simp only [run] at h
    split at h
    · rename_i m hstep
      exact .head ⟨a, hstep, rfl⟩ (ih h)
    · cases h

/-! ## Updates pass each other and sections -/

theorem foldr_update (u : υ) (s : σ) (us : Multiset υ) :
    us.foldr C.update (C.update u s) = C.update u (us.foldr C.update s) := by
  induction us using Multiset.induction_on with
  | empty => rfl
  | cons v us ih => rw [Multiset.foldr_cons, Multiset.foldr_cons, ih, C.update_comm]

theorem body_foldr (s : σ) (us : Multiset υ) (op : κ) :
    C.body (us.foldr C.update s) op = (us.foldr C.update (C.body s op).1, (C.body s op).2) := by
  induction us using Multiset.induction_on with
  | empty => rfl
  | cons u us ih => rw [Multiset.foldr_cons, Multiset.foldr_cons, C.body_update, ih]

/-- A call with updates still owed is the call behind them. -/
theorem apply_foldr (s : σ) (us : Multiset υ) (op : κ) :
    C.apply (us.foldr C.update s) op =
      ((us + ((C.body s op).2.2 : Multiset υ)).foldr C.update (C.body s op).1,
        (C.body s op).2.1) := by
  rw [apply, body_foldr, Multiset.add_comm, Multiset.foldr_add, Multiset.coe_foldr]

end Component

/-! ## What is owed -/

namespace Machine

variable [Fintype θ] [DecidableEq θ]

/-- The updates that the threads still owe. -/
def owed (m : Machine σ κ ρ υ θ) : Multiset υ := ∑ t, (m.threads t).owed

/-- The state with the updates that are owed. -/
def settled (C : Component σ κ ρ υ) (m : Machine σ κ ρ υ θ) : σ :=
  m.owed.foldr C.update m.state

omit [DecidableEq θ] in
/-- When nobody is in a call, nothing is owed. -/
theorem owed_of_idle {m : Machine σ κ ρ υ θ} (h : ∀ t, m.threads t = .idle) : m.owed = 0 :=
  Finset.sum_eq_zero fun t _ => by rw [h t]; rfl

/-- A thread that goes elsewhere owes something else. -/
theorem sum_owed_update (threads : θ → Pc κ ρ υ) (t : θ) (pc : Pc κ ρ υ) :
    ∑ t', (Function.update threads t pc t').owed + (threads t).owed =
      ∑ t', (threads t').owed + pc.owed := by
  have hnew := Finset.add_sum_erase Finset.univ
    (fun t' => (Function.update threads t pc t').owed) (Finset.mem_univ t)
  have hold := Finset.add_sum_erase Finset.univ (fun t' => (threads t').owed) (Finset.mem_univ t)
  have hrest : ∑ t' ∈ Finset.univ.erase t, (Function.update threads t pc t').owed =
      ∑ t' ∈ Finset.univ.erase t, (threads t').owed := by
    refine Finset.sum_congr rfl fun t' ht' => ?_
    rw [Function.update_of_ne (Finset.ne_of_mem_erase ht')]
  simp only [Function.update_self] at hnew
  rw [← hnew, ← hold, hrest]
  abel

/-- A thread that owes the same as before, with the same state. -/
theorem settled_goTo (C : Component σ κ ρ υ) (m : Machine σ κ ρ υ θ) {t : θ} {pc : Pc κ ρ υ}
    (howed : pc.owed = (m.threads t).owed) (made : Nat) :
    settled C { m with threads := Function.update m.threads t pc, made := made } = m.settled C := by
  have hsum := sum_owed_update m.threads t pc
  rw [howed] at hsum
  rw [settled, settled, owed, owed, add_right_cancel hsum]

/-- A section moves the settled state as the whole call does. -/
theorem settled_body (C : Component σ κ ρ υ) (m : Machine σ κ ρ υ θ) {t : θ} {i : Nat} {op : κ}
    (ht : m.threads t = .called i op) :
    settled C { m with
      state := (C.body m.state op).1
      threads := Function.update m.threads t
        (.owing i (C.body m.state op).2.2 (C.body m.state op).2.1) } =
      (C.apply (m.settled C) op).1 := by
  have hsum := sum_owed_update m.threads t
    (.owing i (C.body m.state op).2.2 (C.body m.state op).2.1)
  have hcalled : (Pc.called i op : Pc κ ρ υ).owed = 0 := rfl
  rw [ht, hcalled, add_zero] at hsum
  rw [settled, settled, Component.apply_foldr]
  exact congrArg (Multiset.foldr C.update (C.body m.state op).1) hsum

/-- An update that is made is no longer owed. -/
theorem settled_update (C : Component σ κ ρ υ) (m : Machine σ κ ρ υ θ) {t : θ} {i : Nat} {u : υ}
    {updates : List υ} {reply : ρ} (ht : m.threads t = .owing i (u :: updates) reply) :
    settled C { m with
      state := C.update u m.state
      threads := Function.update m.threads t (.owing i updates reply) } = m.settled C := by
  have hsum := sum_owed_update m.threads t (.owing i updates reply)
  have hbefore : (Pc.owing i (u :: updates) reply : Pc κ ρ υ).owed =
      u ::ₘ (Pc.owing i updates reply : Pc κ ρ υ).owed := rfl
  rw [ht, hbefore, Multiset.add_cons, ← Multiset.cons_add] at hsum
  have howed := add_right_cancel hsum
  rw [settled, settled, owed, owed, ← howed, Multiset.foldr_cons]
  exact Component.foldr_update u m.state _

end Machine

/-! ## Runs -/

section Sound

variable [Fintype θ] [DecidableEq θ] (C : Component σ κ ρ υ) (s₀ : σ)

/-- A call before its section was made and is not in the order; one behind it is, with its reply. -/
def Pc.Placed (h : List (Event Nat κ ρ)) (lin : List (Entry Nat κ ρ)) : Pc κ ρ υ → Prop
  | .idle => True
  | .called id op => .call id op ∈ h ∧ id ∉ lin.map Entry.id
  | .owing id _ reply => ∃ e ∈ lin, e.id = id ∧ e.reply = reply

/-- The order of the sections is a linearization, and the threads are in calls of their own. -/
structure Sound (m : Machine σ κ ρ υ θ) (h : List (Event Nat κ ρ))
    (lin : List (Entry Nat κ ρ)) : Prop where
  order : Linearization (fun s op reply s' => C.apply s op = (s', reply)) s₀ h lin (m.settled C)
  made : ∀ i op, .call i op ∈ h → i < m.made
  apart : ∀ t t' i, (m.threads t).id = some i → (m.threads t').id = some i → t = t'
  placed : ∀ t, (m.threads t).Placed h lin

variable {C s₀} {m m' : Machine σ κ ρ υ θ} {h : List (Event Nat κ ρ)} {lin : List (Entry Nat κ ρ)}

omit [DecidableEq θ] in
theorem Sound.start : Sound C s₀ ({ state := s₀ } : Machine σ κ ρ υ θ) [] [] where
  order := by
    rw [Machine.settled, Machine.owed_of_idle fun _ => rfl]
    exact .nil
  made := by simp
  apart := by simp [Pc.id]
  placed := fun _ => trivial

omit [DecidableEq θ] in
/-- The identifiers of calls that are under way were given out. -/
theorem Sound.id_lt (hs : Sound C s₀ m h lin) {t : θ} {i : Nat} (hi : (m.threads t).id = some i) :
    i < m.made := by
  have hplaced := hs.placed t
  cases hpc : m.threads t with
  | idle => rw [hpc] at hi; cases hi
  | called id op =>
    rw [hpc] at hi hplaced
    cases hi
    exact hs.made _ _ hplaced.1
  | owing id updates reply =>
    rw [hpc] at hi hplaced
    cases hi
    obtain ⟨e, he, rfl, _⟩ := hplaced
    exact hs.made _ _ (hs.order.called e he)

omit [Fintype θ] in
/-- Threads stay apart when one of them keeps its call, or has a new one. -/
theorem apart_update {threads : θ → Pc κ ρ υ} {t : θ} {pc : Pc κ ρ υ}
    (hapart : ∀ t t' i, (threads t).id = some i → (threads t').id = some i → t = t')
    (hpc : ∀ i, pc.id = some i → ∀ t', t' ≠ t → (threads t').id ≠ some i) :
    ∀ t₁ t₂ i, (Function.update threads t pc t₁).id = some i →
      (Function.update threads t pc t₂).id = some i → t₁ = t₂ := by
  intro t₁ t₂ i h₁ h₂
  by_cases ht₁ : t₁ = t
  · by_cases ht₂ : t₂ = t
    · rw [ht₁, ht₂]
    · subst ht₁
      rw [Function.update_self] at h₁
      rw [Function.update_of_ne ht₂] at h₂
      exact absurd h₂ (hpc i h₁ t₂ ht₂)
  · rw [Function.update_of_ne ht₁] at h₁
    by_cases ht₂ : t₂ = t
    · subst ht₂
      rw [Function.update_self] at h₂
      exact absurd h₁ (hpc i h₂ t₁ ht₁)
    · rw [Function.update_of_ne ht₂] at h₂
      exact hapart t₁ t₂ i h₁ h₂

omit [Fintype θ] in
theorem placed_update {threads : θ → Pc κ ρ υ} {t : θ} {pc : Pc κ ρ υ}
    {h' : List (Event Nat κ ρ)} {lin' : List (Entry Nat κ ρ)} (hpc : pc.Placed h' lin')
    (hothers : ∀ t', t' ≠ t → (threads t').Placed h' lin') :
    ∀ t', (Function.update threads t pc t').Placed h' lin' := by
  intro t'
  by_cases ht : t' = t
  · subst ht
    rwa [Function.update_self]
  · rw [Function.update_of_ne ht]
    exact hothers t' ht

/-- A longer history and a longer order leave a call in its place, unless the call is the new one
of the order. -/
theorem Pc.Placed.mono {pc : Pc κ ρ υ} (hp : pc.Placed h lin) (events : List (Event Nat κ ρ))
    (entries : List (Entry Nat κ ρ)) (hne : ∀ e ∈ entries, pc.id ≠ some e.id) :
    pc.Placed (h ++ events) (lin ++ entries) := by
  cases pc with
  | idle => trivial
  | called id op =>
    refine ⟨List.mem_append_left _ hp.1, ?_⟩
    rw [List.map_append, List.mem_append, not_or]
    refine ⟨hp.2, fun hmem => ?_⟩
    obtain ⟨e, he, rfl⟩ := List.mem_map.mp hmem
    exact hne e he rfl
  | owing id updates reply =>
    obtain ⟨e, he, hid, hreply⟩ := hp
    exact ⟨e, List.mem_append_left _ he, hid, hreply⟩

theorem Sound.call (hs : Sound C s₀ m h lin) {t : θ} (op : κ) (ht : m.threads t = .idle) :
    Sound C s₀
      { m with threads := Function.update m.threads t (.called m.made op), made := m.made + 1 }
      (h ++ [.call m.made op]) lin where
  order := by
    rw [Machine.settled_goTo C m (by rw [ht]; rfl)]
    exact hs.order.call op fun op' hmem => Nat.lt_irrefl _ (hs.made m.made op' hmem)
  made := by
    intro i op' hmem
    rcases List.mem_append.mp hmem with hmem | hmem
    · exact Nat.lt_succ_of_lt (hs.made i op' hmem)
    · cases List.mem_singleton.mp hmem
      exact Nat.lt_succ_self _
  apart := apart_update hs.apart fun i hi t' _ hi' => by
    cases hi
    exact Nat.lt_irrefl _ (hs.id_lt hi')
  placed := by
    refine placed_update ⟨List.mem_append_right _ List.mem_cons_self, fun hmem => ?_⟩ fun t' _ => ?_
    · obtain ⟨e, he, hid⟩ := List.mem_map.mp hmem
      have hlt := hs.made _ _ (hs.order.called e he)
      exact Nat.ne_of_lt hlt hid
    · have hp := (hs.placed t').mono [.call m.made op] [] (by simp)
      rwa [List.append_nil] at hp

theorem Sound.body (hs : Sound C s₀ m h lin) {t : θ} {i : Nat} {op : κ}
    (ht : m.threads t = .called i op) :
    Sound C s₀
      { m with
        state := (C.body m.state op).1
        threads := Function.update m.threads t
          (.owing i (C.body m.state op).2.2 (C.body m.state op).2.1) }
      h (lin ++ [⟨i, op, (C.body m.state op).2.1⟩]) where
  order := by
    have hplaced := hs.placed t
    rw [ht] at hplaced
    refine hs.order.commit hplaced.1 hplaced.2 ?_
    rw [Machine.settled_body C m ht, Machine.settled, Component.apply_foldr]
  made := hs.made
  apart := apart_update hs.apart fun j hj t' hne hj' => by
    cases hj
    exact hne (hs.apart t' t i hj' (by rw [ht]; rfl))
  placed := by
    refine placed_update ⟨_, List.mem_append_right _ List.mem_cons_self, rfl, rfl⟩ fun t' hne => ?_
    have hp := (hs.placed t').mono [] [⟨i, op, (C.body m.state op).2.1⟩] fun e he hid => by
      rw [List.mem_singleton.mp he] at hid
      exact hne (hs.apart t' t i hid (by rw [ht]; rfl))
    rwa [List.append_nil] at hp

theorem Sound.update (hs : Sound C s₀ m h lin) {t : θ} {i : Nat} {u : υ} {updates : List υ}
    {reply : ρ} (ht : m.threads t = .owing i (u :: updates) reply) :
    Sound C s₀
      { m with
        state := C.update u m.state
        threads := Function.update m.threads t (.owing i updates reply) } h lin where
  order := by
    rw [Machine.settled_update C m ht]
    exact hs.order
  made := hs.made
  apart := apart_update hs.apart fun j hj t' hne hj' => by
    cases hj
    exact hne (hs.apart t' t i hj' (by rw [ht]; rfl))
  placed := by
    have hplaced := hs.placed t
    rw [ht] at hplaced
    exact placed_update hplaced fun t' _ => hs.placed t'

theorem Sound.ret (hs : Sound C s₀ m h lin) {t : θ} {i : Nat} {reply : ρ}
    (ht : m.threads t = .owing i [] reply) :
    Sound C s₀ { m with threads := Function.update m.threads t .idle } (h ++ [.ret i reply])
      lin where
  order := by
    have hplaced := hs.placed t
    rw [ht] at hplaced
    rw [Machine.settled_goTo C m (by rw [ht]; rfl)]
    exact hs.order.ret hplaced
  made := by
    intro j op hmem
    exact hs.made j op (by simpa using hmem)
  apart := apart_update hs.apart fun j hj => by cases hj
  placed := by
    refine placed_update trivial fun t' _ => ?_
    have hp := (hs.placed t').mono [.ret i reply] [] (by simp)
    rwa [List.append_nil] at hp

/-- Every step keeps the calls in order. -/
theorem Sound.step (hs : Sound C s₀ m h lin) {a : Action κ θ} (hstep : C.step m a = some m') :
    ∃ lin', Sound C s₀ m' (h ++ Component.observe m a) lin' := by
  cases a with
  | call t op =>
    simp only [Component.step] at hstep
    cases ht : m.threads t with
    | idle =>
      rw [ht] at hstep
      cases hstep
      exact ⟨lin, hs.call op ht⟩
    | called => rw [ht] at hstep; cases hstep
    | owing => rw [ht] at hstep; cases hstep
  | body t =>
    simp only [Component.step] at hstep
    cases ht : m.threads t with
    | idle => rw [ht] at hstep; cases hstep
    | called i op =>
      rw [ht] at hstep
      cases hstep
      rw [Component.observe, List.append_nil]
      exact ⟨_, hs.body ht⟩
    | owing => rw [ht] at hstep; cases hstep
  | finish t =>
    simp only [Component.step] at hstep
    simp only [Component.observe]
    cases ht : m.threads t with
    | idle => rw [ht] at hstep; cases hstep
    | called => rw [ht] at hstep; cases hstep
    | owing i updates reply =>
      rw [ht] at hstep
      cases updates with
      | nil =>
        cases hstep
        exact ⟨lin, hs.ret ht⟩
      | cons u updates =>
        cases hstep
        rw [List.append_nil]
        exact ⟨lin, hs.update ht⟩

/-- What a thread owes is the rest of what a section left. -/
def Pc.Leaves (C : Component σ κ ρ υ) : Pc κ ρ υ → Prop
  | .idle | .called _ _ => True
  | .owing _ updates _ => ∃ s op, updates <:+ (C.body s op).2.2

omit [Fintype θ] in
theorem leaves_step (hl : ∀ t, (m.threads t).Leaves C) {a : Action κ θ}
    (hstep : C.step m a = some m') : ∀ t, (m'.threads t).Leaves C := by
  -- only the thread that steps goes elsewhere
  have hgo : ∀ {threads : θ → Pc κ ρ υ} {t : θ} {pc : Pc κ ρ υ}, (∀ t, (threads t).Leaves C) →
      pc.Leaves C → ∀ t', (Function.update threads t pc t').Leaves C := by
    intro threads t pc hthreads hpc t'
    by_cases ht : t' = t
    · subst ht
      rwa [Function.update_self]
    · rw [Function.update_of_ne ht]
      exact hthreads t'
  cases a with
  | call t op =>
    simp only [Component.step] at hstep
    split at hstep
    · cases hstep
      exact hgo hl trivial
    · cases hstep
  | body t =>
    simp only [Component.step] at hstep
    split at hstep
    · cases hstep
      exact hgo hl ⟨_, _, List.suffix_rfl⟩
    · cases hstep
  | finish t =>
    simp only [Component.step] at hstep
    split at hstep
    · rename_i i u updates reply ht
      cases hstep
      have hbefore := hl t
      rw [ht] at hbefore
      obtain ⟨s, op, hsuffix⟩ := hbefore
      exact hgo hl ⟨s, op, (List.suffix_cons u updates).trans hsuffix⟩
    · cases hstep
      exact hgo hl trivial
    · cases hstep

omit [Fintype θ] in
theorem leaves_of_runs (hr : C.Runs s₀ m h) (t : θ) : (m.threads t).Leaves C := by
  have hall : ∀ out : Machine σ κ ρ υ θ × List (Event Nat κ ρ),
      Relation.ReflTransGen C.HistoryNext ({ state := s₀ }, []) out →
        ∀ t, (out.1.threads t).Leaves C := by
    intro out hrun
    induction hrun with
    | refl => exact fun _ => trivial
    | tail _ hnext ih =>
      obtain ⟨a, hstep, _⟩ := hnext
      exact leaves_step ih hstep
  exact hall (m, h) hr t

/-- The threads that are in a call. -/
def Machine.busy (m : Machine σ κ ρ υ θ) : Finset θ :=
  Finset.univ.filter fun t => (m.threads t).id ≠ none

/-- When no section leaves an update twice, every thread in a call owes it at most once. -/
theorem count_owed_le [DecidableEq υ]
    (hnodup : ∀ s op, (C.body s op).2.2.Nodup) (hr : C.Runs s₀ m h) (u : υ) :
    m.owed.count u ≤ m.busy.card := by
  rw [Machine.owed, Multiset.count_sum', Machine.busy, Finset.card_filter]
  refine Finset.sum_le_sum fun t _ => ?_
  have hleaves := leaves_of_runs hr t
  cases ht : m.threads t with
  | idle => exact Nat.zero_le _
  | called i op => exact Nat.zero_le _
  | owing i updates reply =>
    rw [ht] at hleaves
    obtain ⟨s, op, hsuffix⟩ := hleaves
    have hnone : (Pc.owing i updates reply : Pc κ ρ υ).id ≠ none := by simp [Pc.id]
    rw [if_pos hnone, Pc.owed, Multiset.coe_count]
    exact List.nodup_iff_count_le_one.mp ((hnodup s op).sublist hsuffix.sublist) u

/-- Every run is linearizable, and the settled state is the one that the calls leave in this
order; a state in which nobody is in a call is settled. -/
theorem linearizable (hr : C.Runs s₀ m h) :
    ∃ lin, Linearization (fun s op reply s' => C.apply s op = (s', reply)) s₀ h lin
        (m.settled C) ∧
      ((∀ t, m.threads t = .idle) → m.settled C = m.state) := by
  have hsound : ∀ out : Machine σ κ ρ υ θ × List (Event Nat κ ρ),
      Relation.ReflTransGen C.HistoryNext ({ state := s₀ }, []) out →
        ∃ lin, Sound C s₀ out.1 out.2 lin := by
    intro out hrun
    induction hrun with
    | refl => exact ⟨[], .start⟩
    | tail _ hnext ih =>
      obtain ⟨lin, hs⟩ := ih
      obtain ⟨a, hstep, hseen⟩ := hnext
      rw [hseen]
      exact hs.step hstep
  obtain ⟨lin, hs⟩ := hsound (m, h) hr
  refine ⟨lin, hs.order, fun hidle => ?_⟩
  rw [Machine.settled, Machine.owed_of_idle hidle]
  rfl

end Sound

end DeferredUpdates
