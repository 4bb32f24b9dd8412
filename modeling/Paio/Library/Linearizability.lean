import Mathlib.Data.List.Nodup
import Mathlib.Logic.Relation

/-!
# Paio.Library.Linearizability

Calls on a shared component, seen from outside. A history lists when calls are made and when they
return; a sequential specification says what one call does when it is alone. A linearization of a
history puts calls in one order such that

* the specification can make them one after the other with the replies that were given,
* every call that has returned is among them, with the reply it returned with,
* a call that had returned before another was made stands before it.

A linearization is built along a run: a new call changes nothing (`Linearization.call`), at some
moment between its call and its return a call is put at the end of the order
(`Linearization.commit`), and a call that is in the order may return (`Linearization.ret`).
-/

namespace Linearizability

variable {ι κ ρ σ : Type}

inductive Event (ι κ ρ : Type) where
  | call (i : ι) (op : κ)
  | ret (i : ι) (reply : ρ)

namespace Event

/-- The call that an event makes. -/
def made : Event ι κ ρ → Option ι
  | .call i _ => some i
  | .ret _ _ => none

@[simp] theorem made_call (i : ι) (op : κ) : (call i op : Event ι κ ρ).made = some i := rfl

@[simp] theorem made_ret (i : ι) (reply : ρ) : (ret i reply : Event ι κ ρ).made = none := rfl

end Event

/-- `i` has returned before `j` is made. -/
def Precedes (h : List (Event ι κ ρ)) (i j : ι) : Prop :=
  ∃ h₁ h₂ reply op, h = h₁ ++ h₂ ∧ .ret i reply ∈ h₁ ∧ .call j op ∈ h₂

/-- A call in the order of a linearization. -/
structure Entry (ι κ ρ : Type) where
  id : ι
  op : κ
  reply : ρ

/-- The specification makes the calls one after the other, with these replies. -/
def Legal (spec : σ → κ → ρ → σ → Prop) : σ → List (Entry ι κ ρ) → σ → Prop
  | s, [], s' => s = s'
  | s, e :: lin, s' => ∃ s₁, spec s e.op e.reply s₁ ∧ Legal spec s₁ lin s'

structure Linearization (spec : σ → κ → ρ → σ → Prop) (s₀ : σ) (h : List (Event ι κ ρ))
    (lin : List (Entry ι κ ρ)) (s : σ) : Prop where
  legal : Legal spec s₀ lin s
  once : (h.filterMap Event.made).Nodup
  nodup : (lin.map Entry.id).Nodup
  called : ∀ e ∈ lin, .call e.id e.op ∈ h
  answered : ∀ i reply, .ret i reply ∈ h → ∃ e ∈ lin, e.id = i ∧ e.reply = reply
  ordered : ∀ i lin₁ e lin₂, lin = lin₁ ++ e :: lin₂ → Precedes h i e.id →
    i ∈ lin₁.map Entry.id

variable {spec : σ → κ → ρ → σ → Prop} {s₀ s s' : σ} {h : List (Event ι κ ρ)}
  {lin : List (Entry ι κ ρ)}

theorem Legal.snoc {e : Entry ι κ ρ} (hl : Legal spec s₀ lin s) (hs : spec s e.op e.reply s') :
    Legal spec s₀ (lin ++ [e]) s' := by
  induction lin generalizing s₀ with
  | nil =>
    cases hl
    exact ⟨s', hs, rfl⟩
  | cons e' lin ih =>
    obtain ⟨s₁, hs₁, hl'⟩ := hl
    exact ⟨s₁, hs₁, ih hl'⟩

/-- Every call of the order is a step of the specification. -/
theorem Legal.entry {e : Entry ι κ ρ} (hl : Legal spec s₀ lin s) (he : e ∈ lin) :
    ∃ s₁ s₂, spec s₁ e.op e.reply s₂ := by
  induction lin generalizing s₀ with
  | nil => cases he
  | cons e' lin ih =>
    obtain ⟨s₁, hs₁, hl'⟩ := hl
    rcases List.mem_cons.mp he with rfl | he
    · exact ⟨s₀, s₁, hs₁⟩
    · exact ih hl' he

/-! ## Precedence -/

/-- A return at the end of a history is before no call. -/
theorem precedes_ret {i j k : ι} {reply : ρ} (hp : Precedes (h ++ [.ret k reply]) i j) :
    Precedes h i j := by
  obtain ⟨h₁, h₂, reply', op, heq, hret, hcall⟩ := hp
  rcases List.eq_nil_or_concat h₂ with rfl | ⟨h₂', e, rfl⟩
  · cases hcall
  · rw [List.concat_eq_append, ← List.append_assoc] at heq
    obtain ⟨rfl, hlast⟩ := List.append_inj' heq rfl
    cases hlast
    rw [List.concat_eq_append] at hcall
    refine ⟨h₁, h₂', reply', op, rfl, hret, ?_⟩
    simpa using hcall

/-- Precedence before a new call, for any other call. -/
theorem precedes_call {i j k : ι} {op : κ} (hne : j ≠ k)
    (hp : Precedes (h ++ [.call k op]) i j) : Precedes h i j := by
  obtain ⟨h₁, h₂, reply', op', heq, hret, hcall⟩ := hp
  rcases List.eq_nil_or_concat h₂ with rfl | ⟨h₂', e, rfl⟩
  · cases hcall
  · rw [List.concat_eq_append, ← List.append_assoc] at heq
    obtain ⟨rfl, hlast⟩ := List.append_inj' heq rfl
    cases hlast
    rw [List.concat_eq_append] at hcall
    refine ⟨h₁, h₂', reply', op', rfl, hret, ?_⟩
    simpa [hne] using hcall

theorem Precedes.returned {i j : ι} (hp : Precedes h i j) : ∃ reply, .ret i reply ∈ h := by
  obtain ⟨h₁, h₂, reply, op, rfl, hret, -⟩ := hp
  exact ⟨reply, List.mem_append_left _ hret⟩

/-! ## Building a linearization -/

namespace Linearization

theorem nil : Linearization spec s₀ ([] : List (Event ι κ ρ)) [] s₀ where
  legal := rfl
  once := List.nodup_nil
  nodup := List.nodup_nil
  called := by simp
  answered := by simp
  ordered := by simp

theorem call (hl : Linearization spec s₀ h lin s) {i : ι} (op : κ)
    (hnew : ∀ op', .call i op' ∉ h) : Linearization spec s₀ (h ++ [.call i op]) lin s where
  legal := hl.legal
  once := by
    rw [List.filterMap_append, List.nodup_append']
    refine ⟨hl.once, by simp, ?_⟩
    intro j hj hj'
    obtain rfl : j = i := by simpa using hj'
    obtain ⟨e, he, hmade⟩ := List.mem_filterMap.mp hj
    cases e with
    | call k op' =>
      cases hmade
      exact hnew op' he
    | ret k reply => cases hmade
  nodup := hl.nodup
  called := fun e he => List.mem_append_left _ (hl.called e he)
  answered := by
    intro j reply hret
    exact hl.answered j reply (by simpa using hret)
  ordered := by
    intro j lin₁ e lin₂ heq hp
    have hmem : e ∈ lin := by simp [heq]
    have hne : e.id ≠ i := by
      rintro rfl
      exact hnew e.op (hl.called e hmem)
    exact hl.ordered j lin₁ e lin₂ heq (precedes_call hne hp)

theorem commit (hl : Linearization spec s₀ h lin s) {i : ι} {op : κ} {reply : ρ}
    (hcall : .call i op ∈ h) (hnew : i ∉ lin.map Entry.id) (hspec : spec s op reply s') :
    Linearization spec s₀ h (lin ++ [⟨i, op, reply⟩]) s' where
  legal := hl.legal.snoc hspec
  once := hl.once
  nodup := by
    rw [List.map_append, List.nodup_append']
    refine ⟨hl.nodup, by simp, ?_⟩
    intro j hj hj'
    obtain rfl : j = i := by simpa using hj'
    exact hnew hj
  called := by
    intro e he
    rcases List.mem_append.mp he with he | he
    · exact hl.called e he
    · rw [List.mem_singleton.mp he]
      exact hcall
  answered := by
    intro j reply' hret
    obtain ⟨e, he, hid⟩ := hl.answered j reply' hret
    exact ⟨e, List.mem_append_left _ he, hid⟩
  ordered := by
    intro j lin₁ e lin₂ heq hp
    rcases List.eq_nil_or_concat lin₂ with rfl | ⟨lin₂', e', rfl⟩
    · -- the new entry is the last one, and whatever has returned is in the order already
      obtain ⟨rfl, -⟩ := List.append_inj' heq rfl
      obtain ⟨reply', hret⟩ := hp.returned
      obtain ⟨e', he', hid, -⟩ := hl.answered j reply' hret
      exact List.mem_map.mpr ⟨e', he', hid⟩
    · rw [List.concat_eq_append, ← List.cons_append, ← List.append_assoc] at heq
      obtain ⟨heq', -⟩ := List.append_inj' heq rfl
      exact hl.ordered j lin₁ e lin₂' heq' hp

theorem ret (hl : Linearization spec s₀ h lin s) {i : ι} {reply : ρ}
    (hmem : ∃ e ∈ lin, e.id = i ∧ e.reply = reply) :
    Linearization spec s₀ (h ++ [.ret i reply]) lin s where
  legal := hl.legal
  once := by
    rw [List.filterMap_append, List.filterMap_cons_none (Event.made_ret i reply)]
    simpa using hl.once
  nodup := hl.nodup
  called := fun e he => List.mem_append_left _ (hl.called e he)
  answered := by
    intro j reply' hret
    rcases List.mem_append.mp hret with hret | hret
    · exact hl.answered j reply' hret
    · cases List.mem_singleton.mp hret
      exact hmem
  ordered := fun j lin₁ e lin₂ heq hp => hl.ordered j lin₁ e lin₂ heq (precedes_ret hp)

/-- Entries with the same identifier are the same entry. -/
theorem entry_eq (hl : Linearization spec s₀ h lin s) {e e' : Entry ι κ ρ} (he : e ∈ lin)
    (he' : e' ∈ lin) (hid : e.id = e'.id) : e = e' :=
  List.inj_on_of_nodup_map hl.nodup he he' hid

end Linearization

end Linearizability
