import Mathlib.Data.List.Nodup
import Mathlib.Logic.Function.Basic
import Mathlib.Logic.Relation

/-!
# Paio.Library.ServiceLine

A service that many callers use at once, seen one lock section at a time. A caller makes a ticket,
puts a reference to it at the end of a queue and waits. A server takes the references from the
queue one by one, serves each ticket and puts the result, with the key of the ticket, at the end of
a second queue. A waiting caller may take the result at the front of that queue when it has the
key of its own ticket.

The history records what entered and left the queues. `Correct` is what holds over every run in
which no ticket gets the key of a call that is still in progress: whatever entered the line has
been handed out or is in the line, in the order of entry and once, and every caller that has a
result has the one its own ticket gave.
-/

namespace ServiceLine

variable {C T R K : Type}

/-- A reference to the ticket of a call: whose call it is, and which of all calls. -/
structure Ref (C : Type) where
  caller : C
  serial : Nat
  deriving DecidableEq

inductive Phase where
  | idle
  | called
  | awaiting
  | received
  deriving DecidableEq

structure Call (T R : Type) where
  phase : Phase
  serial : Nat
  ticket : T
  result : R

inductive Server (C R : Type) where
  | free
  | started (ref : Ref C)
  | served (ref : Ref C) (result : R)

namespace Server

def refs : Server C R → List (Ref C)
  | free => []
  | started ref => [ref]
  | served ref _ => [ref]

def servedRefs : Server C R → List (Ref C)
  | free => []
  | started _ => []
  | served ref _ => [ref]

end Server

/-- What has happened so far. `handed` has the call that took a result and, with the result, the
call whose ticket gave it; `returned` has the ticket of the call and the result it returned with. -/
structure History (C T R : Type) where
  made : Nat := 0
  submitted : List (Ref C) := []
  served : List (Ref C) := []
  completed : List (Ref C × R) := []
  handed : List (Ref C × Ref C × R) := []
  returned : List (Ref C × T × R) := []

structure Line (C T R : Type) where
  calls : C → Call T R
  waiting : List (Ref C) := []
  server : Server C R := .free
  ready : List (Ref C × R) := []
  history : History C T R := {}

namespace Line

def ref (l : Line C T R) (c : C) : Ref C := ⟨c, (l.calls c).serial⟩

/-- The tickets in the line, the oldest first. -/
def content (l : Line C T R) : List (Ref C) := l.ready.map Prod.fst ++ l.server.refs ++ l.waiting

/-- The tickets whose results were handed out, in the order in which that happened. -/
def left (l : Line C T R) : List (Ref C) := l.history.handed.map fun h => h.2.1

end Line

section Steps

variable [DecidableEq C] (key : T → K) (resultKey : R → K) (serve : T → R)

inductive Step : Line C T R → Line C T R → Prop
  | call {l : Line C T R} (c : C) (t : T) (r : R) (hidle : (l.calls c).phase = .idle)
      (hfresh : ∀ c', (l.calls c').phase ≠ .idle → key (l.calls c').ticket ≠ key t) :
      Step l { l with
        calls := Function.update l.calls c ⟨.called, l.history.made, t, r⟩
        history := { l.history with made := l.history.made + 1 } }
  | submit {l : Line C T R} (c : C) (hcalled : (l.calls c).phase = .called) :
      Step l { l with
        calls := Function.update l.calls c { l.calls c with phase := .awaiting }
        waiting := l.waiting ++ [l.ref c]
        history := { l.history with submitted := l.history.submitted ++ [l.ref c] } }
  | start {l : Line C T R} {ref : Ref C} {rest : List (Ref C)} (hwaiting : l.waiting = ref :: rest)
      (hserver : l.server = .free) :
      Step l { l with waiting := rest, server := .started ref }
  | serve {l : Line C T R} {ref : Ref C} (hserver : l.server = .started ref) :
      Step l { l with
        server := .served ref (serve (l.calls ref.caller).ticket)
        history := { l.history with served := l.history.served ++ [ref] } }
  | complete {l : Line C T R} {ref : Ref C} {r : R} (hserver : l.server = .served ref r) :
      Step l { l with
        server := .free
        ready := l.ready ++ [(ref, r)]
        history := { l.history with completed := l.history.completed ++ [(ref, r)] } }
  | hand {l : Line C T R} (c : C) {ref : Ref C} {r : R} {rest : List (Ref C × R)}
      (hawaiting : (l.calls c).phase = .awaiting) (hready : l.ready = (ref, r) :: rest)
      (hkey : key (l.calls c).ticket = resultKey r) :
      Step l { l with
        calls := Function.update l.calls c { l.calls c with phase := .received, result := r }
        ready := rest
        history := { l.history with handed := l.history.handed ++ [(l.ref c, ref, r)] } }
  | ret {l : Line C T R} (c : C) (hreceived : (l.calls c).phase = .received) :
      Step l { l with
        calls := Function.update l.calls c { l.calls c with phase := .idle }
        history := { l.history with
          returned := l.history.returned ++ [(l.ref c, (l.calls c).ticket, (l.calls c).result)] } }

end Steps

/-! ## What holds over every run -/

/-- Whatever entered the line has left it or is in it, in the order of entry and once. -/
structure Ordered (l : Line C T R) : Prop where
  submitted : l.history.submitted = l.left ++ l.content
  served : l.history.served = l.left ++ l.ready.map Prod.fst ++ l.server.servedRefs
  completed : l.history.completed = l.history.handed.map Prod.snd ++ l.ready
  nodup : l.history.submitted.Nodup
  submitted_lt : ∀ ref ∈ l.history.submitted, ref.serial < l.history.made
  serial_lt : ∀ c, (l.calls c).phase = .called → (l.calls c).serial < l.history.made
  notMem : ∀ c, (l.calls c).phase = .called → l.ref c ∉ l.history.submitted

/-- The tickets in the line are those of the callers that wait, and calls in progress have
different keys. -/
structure Matched (key : T → K) (l : Line C T R) : Prop where
  awaiting : ∀ c, (l.calls c).phase = .awaiting → l.ref c ∈ l.content
  content : ∀ ref ∈ l.content,
    ref = l.ref ref.caller ∧ (l.calls ref.caller).phase = .awaiting
  keys : ∀ c c', (l.calls c).phase ≠ .idle → (l.calls c').phase ≠ .idle →
    key (l.calls c).ticket = key (l.calls c').ticket → c = c'

/-- Every result was given by the ticket it is kept for, and handed to the call of that ticket. -/
structure Answered (serve : T → R) (l : Line C T R) : Prop where
  server : ∀ ref r, l.server = .served ref r → r = serve (l.calls ref.caller).ticket
  ready : ∀ e ∈ l.ready, e.2 = serve (l.calls e.1.caller).ticket
  handed : ∀ h ∈ l.history.handed, h.2.1 = h.1
  received : ∀ c, (l.calls c).phase = .received →
    (l.calls c).result = serve (l.calls c).ticket ∧
      (l.ref c, l.ref c, (l.calls c).result) ∈ l.history.handed
  returned : ∀ x ∈ l.history.returned,
    x.2.2 = serve x.2.1 ∧ (x.1, x.1, x.2.2) ∈ l.history.handed

structure Correct (key : T → K) (serve : T → R) (l : Line C T R) : Prop where
  ordered : Ordered l
  matched : Matched key l
  answered : Answered serve l

variable {key : T → K} {resultKey : R → K} {serve : T → R} {l l' : Line C T R}

theorem Ordered.nodup_content (h : Ordered l) : l.content.Nodup := by
  have hn := h.nodup
  rw [h.submitted] at hn
  exact hn.of_append_right

theorem Ordered.served_prefix (h : Ordered l) : l.history.served <+: l.history.submitted := by
  rw [h.served, h.submitted, Line.content]
  cases l.server with
  | free => exact ⟨l.waiting, by simp [Server.refs, Server.servedRefs]⟩
  | started ref => exact ⟨ref :: l.waiting, by simp [Server.refs, Server.servedRefs]⟩
  | served ref r => exact ⟨l.waiting, by simp [Server.refs, Server.servedRefs]⟩

theorem Ordered.completed_prefix (h : Ordered l) :
    l.history.completed.map Prod.fst <+: l.history.submitted := by
  refine ⟨l.server.refs ++ l.waiting, ?_⟩
  simp [h.completed, h.submitted, Line.left, Line.content]

/-- What entered the line and did not leave it is in it. -/
theorem Ordered.length_submitted (h : Ordered l) :
    l.history.submitted.length = l.history.handed.length + l.content.length := by
  rw [h.submitted, List.length_append, Line.left, List.length_map]

theorem mem_content_of_ready {e : Ref C × R} (h : e ∈ l.ready) : e.1 ∈ l.content := by
  simp only [Line.content, List.mem_append, List.mem_map]
  exact .inl (.inl ⟨e, h, rfl⟩)

/-- A call that has returned has the result of its own ticket, from the queue of results. -/
theorem Correct.of_returned (h : Correct key serve l) {call : Ref C} {t : T} {r : R}
    (hmem : (call, t, r) ∈ l.history.returned) :
    r = serve t ∧ (call, r) ∈ l.history.completed := by
  obtain ⟨hr, hhanded⟩ := h.answered.returned _ hmem
  refine ⟨hr, ?_⟩
  rw [h.ordered.completed]
  exact List.mem_append_left _ (List.mem_map_of_mem hhanded)

/-- The front of the ready results belongs to the caller with its key. -/
theorem Correct.front_eq (hkey : ∀ t, resultKey (serve t) = key t) (h : Correct key serve l)
    {c : C} {ref : Ref C} {r : R} {rest : List (Ref C × R)} (hready : l.ready = (ref, r) :: rest)
    (hc : (l.calls c).phase ≠ .idle) (hk : key (l.calls c).ticket = resultKey r) :
    ref = l.ref c ∧ r = serve (l.calls c).ticket := by
  have hfront : (ref, r) ∈ l.ready := by rw [hready]; exact List.mem_cons_self
  have hr : r = serve (l.calls ref.caller).ticket := h.answered.ready _ hfront
  obtain ⟨href, hphase⟩ := h.matched.content ref (mem_content_of_ready hfront)
  rw [hr, hkey] at hk
  have hcaller := h.matched.keys c ref.caller hc (by rw [hphase]; simp) hk
  rw [hcaller]
  exact ⟨href, hr⟩

/-- A ticket in the line is not the one of a caller that does not wait. -/
theorem Matched.caller_ne (h : Matched key l) {c : C} (hc : (l.calls c).phase ≠ .awaiting)
    {ref : Ref C} (hmem : ref ∈ l.content) : ref.caller ≠ c := by
  intro heq
  have hphase := (h.content ref hmem).2
  rw [heq] at hphase
  exact hc hphase

variable [DecidableEq C]

/-- Who is in a phase after an update that puts `c` into another one was in it before, and is not
`c`. -/
theorem phase_of_update {calls : C → Call T R} {c c' : C} {x : Call T R} {phase : Phase}
    (hx : x.phase ≠ phase) (h : (Function.update calls c x c').phase = phase) :
    c' ≠ c ∧ (calls c').phase = phase := by
  by_cases hcc : c' = c
  · subst hcc
    rw [Function.update_self] at h
    exact absurd h hx
  · rw [Function.update_of_ne hcc] at h
    exact ⟨hcc, h⟩

theorem Step.handed_prefix (hs : Step key resultKey serve l l') :
    l.history.handed <+: l'.history.handed := by
  cases hs with
  | hand c hawaiting hready hk => exact List.prefix_append _ _
  | _ => exact List.prefix_rfl

/-- The callers that have made their ticket are the same after an update that puts `c` into another
phase. -/
theorem Ordered.called_update (h : Ordered l) {c : C} {x : Call T R} (hx : x.phase ≠ .called)
    (c' : C) (hphase : (Function.update l.calls c x c').phase = .called) :
    (Function.update l.calls c x c').serial < l.history.made ∧
      ⟨c', (Function.update l.calls c x c').serial⟩ ∉ l.history.submitted := by
  obtain ⟨hcc, hphase⟩ := phase_of_update hx hphase
  rw [Function.update_of_ne hcc]
  exact ⟨h.serial_lt c' hphase, h.notMem c' hphase⟩

theorem Ordered.step (h : Ordered l) (hs : Step key resultKey serve l l') : Ordered l' := by
  cases hs with
  | call c t r hidle hfresh =>
    refine ⟨h.submitted, h.served, h.completed, h.nodup, ?_, ?_, ?_⟩
    · intro ref hmem
      exact Nat.lt_succ_of_lt (h.submitted_lt ref hmem)
    · intro c' hphase
      by_cases hcc : c' = c
      · subst hcc
        simp
      · simp only [Function.update_of_ne hcc] at hphase ⊢
        exact Nat.lt_succ_of_lt (h.serial_lt c' hphase)
    · intro c' hphase hmem
      by_cases hcc : c' = c
      · subst hcc
        have hlt := h.submitted_lt _ hmem
        simp [Line.ref] at hlt
      · simp only [Line.ref, Function.update_of_ne hcc] at hphase hmem
        exact h.notMem c' hphase hmem
  | submit c hcalled =>
    have hnot := h.notMem c hcalled
    refine ⟨?_, h.served, h.completed, ?_, ?_, ?_, ?_⟩
    · simp only [h.submitted, Line.left, Line.content, List.append_assoc]
    · exact h.nodup.append (List.nodup_singleton _) (by simpa using hnot)
    · intro ref hmem
      rcases List.mem_append.mp hmem with hmem | hmem
      · exact h.submitted_lt ref hmem
      · rw [List.mem_singleton.mp hmem]
        exact h.serial_lt c hcalled
    · exact fun c' hphase => (h.called_update (by simp) c' hphase).1
    · intro c' hphase hmem
      obtain ⟨hcc, -⟩ := phase_of_update (by simp) hphase
      rcases List.mem_append.mp hmem with hmem | hmem
      · exact (h.called_update (by simp) c' hphase).2 hmem
      · exact hcc (congrArg Ref.caller (List.mem_singleton.mp hmem))
  | start hwaiting hserver =>
    refine ⟨?_, ?_, h.completed, h.nodup, h.submitted_lt, h.serial_lt, h.notMem⟩
    · rw [h.submitted]
      simp [Line.left, Line.content, hwaiting, hserver, Server.refs]
    · rw [h.served]
      simp [Line.left, hserver, Server.servedRefs]
  | serve hserver =>
    refine ⟨?_, ?_, h.completed, h.nodup, h.submitted_lt, h.serial_lt, h.notMem⟩
    · rw [h.submitted]
      simp [Line.left, Line.content, hserver, Server.refs]
    · simp [h.served, Line.left, hserver, Server.servedRefs]
  | complete hserver =>
    refine ⟨?_, ?_, ?_, h.nodup, h.submitted_lt, h.serial_lt, h.notMem⟩
    · rw [h.submitted]
      simp [Line.left, Line.content, hserver, Server.refs]
    · simp [h.served, Line.left, hserver, Server.servedRefs]
    · simp [h.completed]
  | hand c hawaiting hready hk =>
    refine ⟨?_, ?_, ?_, h.nodup, h.submitted_lt, ?_, ?_⟩
    · rw [h.submitted]
      simp [Line.left, Line.content, hready]
    · rw [h.served]
      simp [Line.left, hready]
    · rw [h.completed]
      simp [hready]
    · exact fun c' hphase => (h.called_update (by simp) c' hphase).1
    · exact fun c' hphase => (h.called_update (by simp) c' hphase).2
  | ret c hreceived =>
    refine ⟨h.submitted, h.served, h.completed, h.nodup, h.submitted_lt, ?_, ?_⟩
    · exact fun c' hphase => (h.called_update (by simp) c' hphase).1
    · exact fun c' hphase => (h.called_update (by simp) c' hphase).2

/-- Calls in progress keep different keys when one of them changes its phase only. -/
theorem Matched.keys_update (h : Matched key l) {c : C} {x : Call T R}
    (hc : (l.calls c).phase ≠ .idle) (hx : x.ticket = (l.calls c).ticket) (c₁ c₂ : C)
    (h₁ : (Function.update l.calls c x c₁).phase ≠ .idle)
    (h₂ : (Function.update l.calls c x c₂).phase ≠ .idle)
    (hk : key (Function.update l.calls c x c₁).ticket = key (Function.update l.calls c x c₂).ticket) :
    c₁ = c₂ := by
  have hof : ∀ c', (Function.update l.calls c x c').phase ≠ .idle →
      (l.calls c').phase ≠ .idle ∧
        (Function.update l.calls c x c').ticket = (l.calls c').ticket := by
    intro c' hphase
    by_cases hcc : c' = c
    · subst hcc
      exact ⟨hc, by rw [Function.update_self, hx]⟩
    · rw [Function.update_of_ne hcc] at hphase ⊢
      exact ⟨hphase, rfl⟩
  rw [(hof c₁ h₁).2, (hof c₂ h₂).2] at hk
  exact h.keys c₁ c₂ (hof c₁ h₁).1 (hof c₂ h₂).1 hk

/-- The update of a caller that does not wait leaves the rest of the line as it was. -/
theorem Matched.content_update (h : Matched key l) {c : C} {x : Call T R} {ref : Ref C}
    (hne : ref.caller ≠ c) (hmem : ref ∈ l.content) :
    ref = ⟨ref.caller, (Function.update l.calls c x ref.caller).serial⟩ ∧
      (Function.update l.calls c x ref.caller).phase = .awaiting := by
  rw [Function.update_of_ne hne]
  exact h.content ref hmem

omit [DecidableEq C] in
/-- A step of the server. -/
theorem Matched.of_content (h : Matched key l) (hcalls : l'.calls = l.calls)
    (hcontent : l'.content = l.content) : Matched key l' := by
  refine ⟨?_, ?_, ?_⟩
  · intro c hphase
    rw [hcalls] at hphase
    rw [hcontent, Line.ref, hcalls]
    exact h.awaiting c hphase
  · intro ref hmem
    rw [hcontent] at hmem
    rw [Line.ref, hcalls]
    exact h.content ref hmem
  · rw [hcalls]
    exact h.keys

theorem Matched.step (hkey : ∀ t, resultKey (serve t) = key t) (ho : Ordered l)
    (ha : Answered serve l) (h : Matched key l) (hs : Step key resultKey serve l l') :
    Matched key l' := by
  cases hs with
  | call c t r hidle hfresh =>
    have hc : (l.calls c).phase ≠ .awaiting := by rw [hidle]; simp
    refine ⟨?_, ?_, ?_⟩
    · intro c' hphase
      obtain ⟨hcc, hphase⟩ := phase_of_update (by simp) hphase
      simp only [Line.ref, Function.update_of_ne hcc]
      exact h.awaiting c' hphase
    · intro ref hmem
      exact h.content_update (h.caller_ne hc hmem) hmem
    · intro c₁ c₂ h₁ h₂ hk
      by_cases hc₁ : c₁ = c <;> by_cases hc₂ : c₂ = c
      · rw [hc₁, hc₂]
      · subst hc₁
        simp only [Function.update_self, Function.update_of_ne hc₂] at h₂ hk
        exact absurd hk.symm (hfresh c₂ h₂)
      · subst hc₂
        simp only [Function.update_self, Function.update_of_ne hc₁] at h₁ hk
        exact absurd hk (hfresh c₁ h₁)
      · simp only [Function.update_of_ne hc₁, Function.update_of_ne hc₂] at h₁ h₂ hk
        exact h.keys c₁ c₂ h₁ h₂ hk
  | submit c hcalled =>
    have hc : (l.calls c).phase ≠ .awaiting := by rw [hcalled]; simp
    refine ⟨?_, ?_, h.keys_update (by rw [hcalled]; simp) rfl⟩
    · intro c' hphase
      simp only [Line.content, Line.ref, ← List.append_assoc, List.mem_append, List.mem_singleton]
      by_cases hcc : c' = c
      · subst hcc
        exact .inr (by rw [Function.update_self])
      · simp only [Function.update_of_ne hcc] at hphase ⊢
        have hmem := h.awaiting c' hphase
        simp only [Line.content, Line.ref, List.mem_append] at hmem
        exact .inl hmem
    · intro ref hmem
      simp only [Line.content, ← List.append_assoc, List.mem_append (t := [l.ref c]),
        List.mem_singleton] at hmem
      rcases hmem with hmem | rfl
      · exact h.content_update (h.caller_ne hc hmem) hmem
      · simp [Line.ref]
  | start hwaiting hserver =>
    refine h.of_content rfl ?_
    simp [Line.content, hwaiting, hserver, Server.refs]
  | serve hserver =>
    refine h.of_content rfl ?_
    simp [Line.content, hserver, Server.refs]
  | complete hserver =>
    refine h.of_content rfl ?_
    simp [Line.content, hserver, Server.refs]
  | @hand c ref r rest hawaiting hready hk =>
    obtain ⟨rfl, -⟩ := Correct.front_eq hkey ⟨ho, h, ha⟩ hready (by rw [hawaiting]; simp) hk
    have hcontent : l.content = l.ref c :: (rest.map Prod.fst ++ l.server.refs ++ l.waiting) := by
      simp [Line.content, hready]
    have hnodup := ho.nodup_content
    rw [hcontent, List.nodup_cons] at hnodup
    refine ⟨?_, ?_, h.keys_update (by rw [hawaiting]; simp) rfl⟩
    · intro c' hphase
      obtain ⟨hcc, hphase⟩ := phase_of_update (by simp) hphase
      have hmem := h.awaiting c' hphase
      rw [hcontent, List.mem_cons] at hmem
      simp only [Line.ref, Function.update_of_ne hcc]
      rcases hmem with heq | hmem
      · exact absurd (congrArg Ref.caller heq) hcc
      · exact hmem
    · intro ref hmem
      have hin : ref ∈ l.content := by
        rw [hcontent]
        exact List.mem_cons_of_mem _ hmem
      refine h.content_update ?_ hin
      intro heq
      have href := (h.content ref hin).1
      rw [heq] at href
      rw [href] at hmem
      exact hnodup.1 hmem
  | ret c hreceived =>
    have hc : (l.calls c).phase ≠ .awaiting := by rw [hreceived]; simp
    refine ⟨?_, ?_, h.keys_update (by rw [hreceived]; simp) rfl⟩
    · intro c' hphase
      obtain ⟨hcc, hphase⟩ := phase_of_update (by simp) hphase
      simp only [Line.ref, Function.update_of_ne hcc]
      exact h.awaiting c' hphase
    · intro ref hmem
      exact h.content_update (h.caller_ne hc hmem) hmem

theorem ticket_update {calls : C → Call T R} {c : C} {x : Call T R}
    (hx : x.ticket = (calls c).ticket) (c' : C) :
    (Function.update calls c x c').ticket = (calls c').ticket := by
  by_cases hcc : c' = c
  · subst hcc
    rw [Function.update_self, hx]
  · rw [Function.update_of_ne hcc]

/-- What was served stays the answer when a call changes its phase only. -/
theorem Answered.served_update (h : Answered serve l) {c : C} {x : Call T R}
    (hx : x.ticket = (l.calls c).ticket) :
    (∀ ref r, l.server = .served ref r →
        r = serve (Function.update l.calls c x ref.caller).ticket) ∧
      ∀ e ∈ l.ready, e.2 = serve (Function.update l.calls c x e.1.caller).ticket := by
  simp only [ticket_update hx]
  exact ⟨h.server, h.ready⟩

/-- The callers that have their result are the same after an update that puts `c` into another
phase. -/
theorem Answered.received_update (h : Answered serve l) {c : C} {x : Call T R}
    (hx : x.phase ≠ .received) (c' : C)
    (hphase : (Function.update l.calls c x c').phase = .received) :
    (Function.update l.calls c x c').result = serve (Function.update l.calls c x c').ticket ∧
      (⟨c', (Function.update l.calls c x c').serial⟩, ⟨c', (Function.update l.calls c x c').serial⟩,
        (Function.update l.calls c x c').result) ∈ l.history.handed := by
  obtain ⟨hcc, hphase⟩ := phase_of_update hx hphase
  rw [Function.update_of_ne hcc]
  exact h.received c' hphase

theorem Answered.step (hkey : ∀ t, resultKey (serve t) = key t) (ho : Ordered l)
    (hm : Matched key l) (h : Answered serve l) (hs : Step key resultKey serve l l') :
    Answered serve l' := by
  cases hs with
  | call c t r hidle hfresh =>
    have hc : (l.calls c).phase ≠ .awaiting := by rw [hidle]; simp
    refine ⟨?_, ?_, h.handed, ?_, h.returned⟩
    · intro ref r' hserver
      have hmem : ref ∈ l.content := by
        have hserver' : l.server = .served ref r' := hserver
        simp [Line.content, hserver', Server.refs]
      simp only [Function.update_of_ne (hm.caller_ne hc hmem)]
      exact h.server ref r' hserver
    · intro e hmem
      simp only [Function.update_of_ne (hm.caller_ne hc (mem_content_of_ready hmem))]
      exact h.ready e hmem
    · exact h.received_update (by simp)
  | submit c hcalled =>
    obtain ⟨hserver, hready⟩ := h.served_update (c := c)
      (x := { l.calls c with phase := .awaiting }) rfl
    exact ⟨hserver, hready, h.handed, h.received_update (by simp), h.returned⟩
  | start hwaiting hserver =>
    refine ⟨?_, h.ready, h.handed, h.received, h.returned⟩
    intro ref r hserved
    cases hserved
  | serve hserver =>
    refine ⟨?_, h.ready, h.handed, h.received, h.returned⟩
    intro ref r hserved
    cases hserved
    rfl
  | complete hserver =>
    refine ⟨?_, ?_, h.handed, h.received, h.returned⟩
    · intro ref r hserved
      cases hserved
    · intro e hmem
      rcases List.mem_append.mp hmem with hmem | hmem
      · exact h.ready e hmem
      · rw [List.mem_singleton.mp hmem]
        exact h.server _ _ hserver
  | @hand c ref r rest hawaiting hready hk =>
    obtain ⟨rfl, hr⟩ := Correct.front_eq hkey ⟨ho, hm, h⟩ hready (by rw [hawaiting]; simp) hk
    obtain ⟨hserver, hanswers⟩ := h.served_update (c := c)
      (x := { l.calls c with phase := .received, result := r }) rfl
    refine ⟨hserver, ?_, ?_, ?_, ?_⟩
    · intro e hmem
      exact hanswers e (by rw [hready]; exact List.mem_cons_of_mem _ hmem)
    · intro x hmem
      rcases List.mem_append.mp hmem with hmem | hmem
      · exact h.handed x hmem
      · rw [List.mem_singleton.mp hmem]
    · intro c' hphase
      by_cases hcc : c' = c
      · subst hcc
        simp [Line.ref, hr]
      · simp only [Function.update_of_ne hcc] at hphase
        simp only [Line.ref, Function.update_of_ne hcc, List.mem_append]
        exact ⟨(h.received c' hphase).1, .inl (h.received c' hphase).2⟩
    · intro x hmem
      exact ⟨(h.returned x hmem).1, List.mem_append_left _ (h.returned x hmem).2⟩
  | ret c hreceived =>
    obtain ⟨hserver, hready⟩ := h.served_update (c := c)
      (x := { l.calls c with phase := .idle }) rfl
    refine ⟨hserver, hready, h.handed, h.received_update (by simp), ?_⟩
    intro x hmem
    rcases List.mem_append.mp hmem with hmem | hmem
    · exact h.returned x hmem
    · rw [List.mem_singleton.mp hmem]
      exact h.received c hreceived

theorem Correct.step (hkey : ∀ t, resultKey (serve t) = key t) (h : Correct key serve l)
    (hs : Step key resultKey serve l l') : Correct key serve l' where
  ordered := h.ordered.step hs
  matched := h.matched.step hkey h.ordered h.answered hs
  answered := h.answered.step hkey h.ordered h.matched hs

omit [DecidableEq C] in
/-- A line in which nobody has made a call yet. -/
theorem correct_of_idle {calls : C → Call T R} (h : ∀ c, (calls c).phase = .idle) :
    Correct key serve { calls := calls } := by
  refine ⟨⟨rfl, rfl, rfl, List.nodup_nil, ?_, ?_, ?_⟩, ⟨?_, ?_, ?_⟩, ⟨?_, ?_, ?_, ?_, ?_⟩⟩ <;>
    simp [Line.content, Server.refs, h]

end ServiceLine
