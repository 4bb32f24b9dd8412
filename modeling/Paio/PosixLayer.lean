import Paio.DefaultChannels
import Paio.StageRequests

/-!
# Paio.PosixLayer

The file operations that an application calls instead of those of the C library. Each submits its
Context to the stage and then performs the system call that it stands for. The three writing
operations look at the Result first. The three reading operations look at it only when the stage
transforms the data: otherwise they enforce, and read whatever the Result says.
-/

namespace Paio

variable (opt : Options) (hash : String → UInt32)

/-! ## System calls -/

/-- The enumerators of `POSIX` that the layer puts into a Context. -/
inductive POSIX where
  | noOp
  | read
  | write
  | pread
  | pwrite
  | pread64
  | pwrite64
  deriving DecidableEq, Repr

def POSIX.value : POSIX → Int
  | .noOp => 0
  | .read => 1
  | .write => 2
  | .pread => 3
  | .pwrite => 4
  | .pread64 => 5
  | .pwrite64 => 6

/-- A call of the C library with its arguments. A pointer comes with the bytes it points to. -/
inductive SystemCall where
  | read (fd : Int) (buf : Buffer) (count : Nat)
  | pread (fd : Int) (buf : Buffer) (count : Nat) (offset : Int)
  | pread64 (fd : Int) (buf : Buffer) (size : Nat) (offset : Int)
  | write (fd : Int) (buf : Buffer) (count : Nat)
  | pwrite (fd : Int) (buf : Buffer) (count : Nat) (offset : Int)
  | pwrite64 (fd : Int) (buf : Buffer) (size : Nat) (offset : Int)

namespace SystemCall

/-- The operations that hand data to the file system. -/
def Writes : SystemCall → Prop
  | .read .. | .pread .. | .pread64 .. => False
  | .write .. | .pwrite .. | .pwrite64 .. => True

/-- The operation type, and the bytes that are asked for. -/
def classifiers : SystemCall → POSIX × Nat
  | .read _ _ count => (.read, count)
  | .pread _ _ count _ => (.pread, count)
  | .pread64 _ _ size _ => (.pread64, size)
  | .write _ _ count => (.write, count)
  | .pwrite _ _ count _ => (.pwrite, count)
  | .pwrite64 _ _ size _ => (.pwrite64, size)

end SystemCall

/-- The C library: the value that a system call returns and what its buffer holds then, and
whether `realloc` finds room for that many bytes. -/
structure LibC where
  value : SystemCall → Int
  buffer : SystemCall → Buffer
  realloc : Nat → Bool

/-- What a data call did: the Result that it enforced with, the system calls it made in their
order, the value it returned, and what the buffer holds. -/
structure DataCall where
  result : Result
  calls : List SystemCall
  value : Int
  buffer : Buffer

namespace LibC

/-- `return ::call (…)`. -/
def perform (libc : LibC) (result : Result) (call : SystemCall) : DataCall where
  result := result
  calls := [call]
  value := libc.value call
  buffer := libc.buffer call

end LibC

/-- The pointer that `get_content` returns. -/
def Result.getContent (r : Result) : Buffer := r.content.map fun bytes i => bytes.getD i 0

/-! ## Enforcing -/

/-- `InstanceInterface::enforce`: the request is submitted again after each sleep, until the stage
takes it. `sleeps` holds what the other threads make of the stage during each of them. -/
def Stage.enforce (clock : Clock) (fuel : Nat) (context : Context) (buffer : Buffer) (size : Nat) :
    List (Stage → Stage) → Stage → Result → Except Fault (Stage × Result)
  | sleeps, stage, result =>
    match stage.enforceRequest opt hash clock fuel context buffer size result with
    | .error f => .error f
    | .ok (stage', status, result') =>
      if status = .enforced then .ok (stage', result')
      else
        match sleeps with
        | [] => .error .outOfFuel
        | others :: rest => enforce clock fuel context buffer size rest (others stage') result'

/-- The layer. The secondary name of its workflow is only printed. -/
structure PosixLayer where
  stage : Stage
  defaultWorkflowId : Int := -1
  defaultOperationType : Int := POSIX.noOp.value
  defaultOperationContext : Int := POSIX.noOp.value
  hasIoTransformation : Bool := false

/-- Everything around a data call that is not the layer: the clock and the rounds of the rate
limiters, the other threads while it sleeps, and the C library. -/
structure Surroundings where
  clock : Clock
  fuel : Nat
  sleeps : List (Stage → Stage)
  libc : LibC

namespace PosixLayer

/-- `build_context_object`. -/
def buildContextObject (workflowId operationType operationContext : Int) (operationSize : UInt64)
    (totalOperations : Int) : Context where
  workflowId := workflowId
  operationType := operationType
  operationContext := operationContext
  operationSize := operationSize
  totalOperations := totalOperations

/-- The Context of a call that comes without one. -/
def defaultContext (layer : PosixLayer) (operation : POSIX) (count : Nat) : Context :=
  buildContextObject layer.defaultWorkflowId operation.value layer.defaultOperationContext
    (UInt64.ofNat count) 1

/-- `enforce`. -/
def enforce (around : Surroundings) (layer : PosixLayer) (context : Context) (buffer : Buffer)
    (size : Nat) (result : Result) : Except Fault (PosixLayer × Result) :=
  match Stage.enforce opt hash around.clock around.fuel context buffer size around.sleeps
      layer.stage result with
  | .ok (stage, result') => .ok ({ layer with stage := stage }, result')
  | .error f => .error f

/-! ## The writing operations -/

/-- The body that the writing operations share; `call` is the system call as a function of the
buffer and the number of bytes. -/
def writeBody (around : Surroundings) (layer : PosixLayer) (call : Buffer → Nat → SystemCall)
    (buf : Buffer) (count : Nat) (context : Context) : Except Fault (PosixLayer × DataCall) :=
  let enforced :=
    if layer.hasIoTransformation then layer.enforce opt hash around context buf count {}
    else layer.enforce opt hash around context none 0 {}
  match enforced with
  | .error f => .error f
  | .ok (layer', result) =>
    if layer.hasIoTransformation = true ∧ result.resultStatus = .success then
      .ok (layer', { around.libc.perform result (call result.getContent result.contentSize) with
        buffer := buf })
    else if result.resultStatus = .success then
      .ok (layer', { around.libc.perform result (call buf count) with buffer := buf })
    else .ok (layer', { result := result, calls := [], value := -1, buffer := buf })

def write (around : Surroundings) (layer : PosixLayer) (fd : Int) (buf : Buffer) (count : Nat)
    (context : Context) : Except Fault (PosixLayer × DataCall) :=
  layer.writeBody opt hash around (.write fd) buf count context

def pwrite (around : Surroundings) (layer : PosixLayer) (fd : Int) (buf : Buffer) (count : Nat)
    (offset : Int) (context : Context) : Except Fault (PosixLayer × DataCall) :=
  layer.writeBody opt hash around (.pwrite fd · · offset) buf count context

def pwrite64 (around : Surroundings) (layer : PosixLayer) (fd : Int) (buf : Buffer) (size : Nat)
    (offset : Int) (context : Context) : Except Fault (PosixLayer × DataCall) :=
  layer.writeBody opt hash around (.pwrite64 fd · · offset) buf size context

/-! ## The reading operations -/

/-- The body that the reading operations share. -/
def readBody (around : Surroundings) (layer : PosixLayer) (call : Buffer → Nat → SystemCall)
    (buf : Buffer) (count : Nat) (context : Context) : Except Fault (PosixLayer × DataCall) :=
  if layer.hasIoTransformation then
    -- the bytes have to be there before the stage can transform them
    let done := around.libc.perform {} (call buf count)
    if 0 < done.value then
      match layer.enforce opt hash around context done.buffer done.value.toNat {} with
      | .error f => .error f
      | .ok (layer', result) =>
        if result.resultStatus ≠ .success then
          .ok (layer', { done with result := result, value := -1 })
        else if around.libc.realloc result.contentSize then
          .ok (layer', { done with
            result := result, value := result.contentSize, buffer := result.getContent })
        else .ok (layer', { done with result := result, value := -1 })
    else .ok (layer, done)
  else
    match layer.enforce opt hash around context none 0 {} with
    | .error f => .error f
    | .ok (layer', result) => .ok (layer', around.libc.perform result (call buf count))

def read (around : Surroundings) (layer : PosixLayer) (fd : Int) (buf : Buffer) (count : Nat)
    (context : Context) : Except Fault (PosixLayer × DataCall) :=
  layer.readBody opt hash around (.read fd) buf count context

def pread (around : Surroundings) (layer : PosixLayer) (fd : Int) (buf : Buffer) (count : Nat)
    (offset : Int) (context : Context) : Except Fault (PosixLayer × DataCall) :=
  layer.readBody opt hash around (.pread fd · · offset) buf count context

def pread64 (around : Surroundings) (layer : PosixLayer) (fd : Int) (buf : Buffer) (size : Nat)
    (offset : Int) (context : Context) : Except Fault (PosixLayer × DataCall) :=
  layer.readBody opt hash around (.pread64 fd · · offset) buf size context

/-- The operation that stands for a system call. -/
def intercept (around : Surroundings) (layer : PosixLayer) (context : Context) :
    SystemCall → Except Fault (PosixLayer × DataCall)
  | .read fd buf count => layer.read opt hash around fd buf count context
  | .pread fd buf count offset => layer.pread opt hash around fd buf count offset context
  | .pread64 fd buf size offset => layer.pread64 opt hash around fd buf size offset context
  | .write fd buf count => layer.write opt hash around fd buf count context
  | .pwrite fd buf count offset => layer.pwrite opt hash around fd buf count offset context
  | .pwrite64 fd buf size offset => layer.pwrite64 opt hash around fd buf size offset context

/-- The overload without a Context. -/
def interceptDefault (around : Surroundings) (layer : PosixLayer) (call : SystemCall) :
    Except Fault (PosixLayer × DataCall) :=
  layer.intercept opt hash around
    (layer.defaultContext call.classifiers.1 call.classifiers.2) call

/-! ## Whether the Result is respected -/

/-- The system call is made once, with the caller's arguments, and its value returned exactly when
the Result is a success. Otherwise none is made and `-1` returned. -/
structure Respects (libc : LibC) (call : SystemCall) (done : DataCall) : Prop where
  performed_iff : done.calls = [call] ∧ done.value = libc.value call ↔
    done.result.resultStatus = .success
  refused : done.result.resultStatus ≠ .success → done.calls = [] ∧ done.value = -1

/-- A call that is made in any case is right exactly after a success. -/
theorem respects_iff_of_performed {libc : LibC} {call : SystemCall} {done : DataCall}
    (hcalls : done.calls = [call]) (hvalue : done.value = libc.value call) :
    Respects libc call done ↔ done.result.resultStatus = .success := by
  constructor
  · intro h
    exact h.performed_iff.mp ⟨hcalls, hvalue⟩
  · intro h
    exact ⟨iff_of_true ⟨hcalls, hvalue⟩ h, fun hne => absurd h hne⟩

theorem respects_of_refused {libc : LibC} {call : SystemCall} {done : DataCall}
    (hstatus : done.result.resultStatus ≠ .success) (hcalls : done.calls = [])
    (hvalue : done.value = -1) : Respects libc call done where
  performed_iff := iff_of_false (by simp [hcalls]) hstatus
  refused _ := ⟨hcalls, hvalue⟩

section Respected

variable {opt hash} {around : Surroundings} {layer layer' : PosixLayer} {done : DataCall}
variable {context : Context}

/-- A stage that is ready takes the request at once. -/
theorem enforce_success_iff {buffer : Buffer} {size : Nat} {result : Result}
    (hready : layer.stage.ready = true)
    (h : layer.enforce opt hash around context buffer size {} = .ok (layer', result)) :
    result.resultStatus = .success ↔
      ∃ channel, layer.stage.channelOf hash context = some channel := by
  unfold enforce Stage.enforce at h
  split at h
  · rename_i stage' result' hloop
    cases h
    split at hloop
    · cases hloop
    · rename_i stage'' status result'' hrequest
      obtain ⟨hnot, -⟩ | ⟨-, rfl, hsel, rfl, rfl⟩ | ⟨-, rfl, channel, -, hsel, -, -, hstatus, -⟩ :=
        Stage.enforceRequest_cases hrequest
      · exact absurd hready (by simp [hnot])
      · cases hloop
        simp [hsel]
      · cases hloop
        exact iff_of_true hstatus ⟨channel, hsel⟩
  · cases h

/-- When the stage transforms the data, a read that was not enforced brings no bytes. -/
theorem readBody_transformed_le {call : Buffer → Nat → SystemCall} {buf : Buffer} {count : Nat}
    (hmode : layer.hasIoTransformation = true)
    (h : layer.readBody opt hash around call buf count context = .ok (layer', done))
    (hstatus : done.result.resultStatus ≠ .success) : done.value ≤ 0 := by
  simp only [readBody, hmode, if_true] at h
  split at h
  · split at h
    · cases h
    · split at h
      · cases h
        exact Int.neg_nonpos_of_nonneg (by decide)
      · rename_i hsuccess
        have hsuccess := not_not.mp hsuccess
        split at h <;> cases h <;> exact absurd hsuccess hstatus
  · rename_i hvalue
    cases h
    exact not_lt.mp hvalue

/-! ### Without transformation -/

variable (hmode : layer.hasIoTransformation = false)
include hmode

theorem writeBody_respects {call : Buffer → Nat → SystemCall} {buf : Buffer} {count : Nat}
    (h : layer.writeBody opt hash around call buf count context = .ok (layer', done)) :
    Respects around.libc (call buf count) done := by
  simp only [writeBody, hmode, Bool.false_eq_true, if_false, false_and] at h
  split at h
  · cases h
  · split at h
    · rename_i hstatus
      cases h
      exact (respects_iff_of_performed rfl rfl).mpr hstatus
    · rename_i hstatus
      cases h
      exact respects_of_refused hstatus rfl rfl

theorem readBody_respects_iff {call : Buffer → Nat → SystemCall} {buf : Buffer} {count : Nat}
    (hready : layer.stage.ready = true)
    (h : layer.readBody opt hash around call buf count context = .ok (layer', done)) :
    Respects around.libc (call buf count) done ↔
      ∃ channel, layer.stage.channelOf hash context = some channel := by
  simp only [readBody, hmode, Bool.false_eq_true, if_false] at h
  split at h
  · cases h
  · rename_i result henforce
    cases h
    rw [respects_iff_of_performed rfl rfl]
    exact enforce_success_iff hready henforce

theorem intercept_respects_of_writes {call : SystemCall} (hwrites : call.Writes)
    (h : layer.intercept opt hash around context call = .ok (layer', done)) :
    Respects around.libc call done := by
  cases call with
  | read | pread | pread64 => cases hwrites
  | write fd buf count =>
    have hbody : layer.writeBody opt hash around (.write fd) buf count context = _ := h
    exact writeBody_respects hmode hbody
  | pwrite fd buf count offset =>
    have hbody : layer.writeBody opt hash around (.pwrite fd · · offset) buf count context = _ := h
    exact writeBody_respects hmode hbody
  | pwrite64 fd buf size offset =>
    have hbody : layer.writeBody opt hash around (.pwrite64 fd · · offset) buf size context = _ := h
    exact writeBody_respects hmode hbody

theorem intercept_respects_iff_of_reads {call : SystemCall} (hreads : ¬ call.Writes)
    (hready : layer.stage.ready = true)
    (h : layer.intercept opt hash around context call = .ok (layer', done)) :
    Respects around.libc call done ↔
      ∃ channel, layer.stage.channelOf hash context = some channel := by
  cases call with
  | read fd buf count =>
    have hbody : layer.readBody opt hash around (.read fd) buf count context = _ := h
    exact readBody_respects_iff hmode hready hbody
  | pread fd buf count offset =>
    have hbody : layer.readBody opt hash around (.pread fd · · offset) buf count context = _ := h
    exact readBody_respects_iff hmode hready hbody
  | pread64 fd buf size offset =>
    have hbody : layer.readBody opt hash around (.pread64 fd · · offset) buf size context = _ := h
    exact readBody_respects_iff hmode hready hbody
  | write | pwrite | pwrite64 => exact absurd trivial hreads

/-- With the shipped classifiers a call without a Context finds the first default channel, whatever
its operation is: it is the operation context that counts, and the layer leaves it at `no_op`. -/
theorem interceptDefault_respects {call : SystemCall} {n : Nat} {createDefaultObjects : Bool}
    {clock : Nat → Clock} (hshipped : opt.ShippedDifferentiation)
    (hcore : layer.stage.agent.core =
      Core.newWith opt hash (n + 1 : Nat) true createDefaultObjects clock)
    (hcontext : layer.defaultOperationContext = POSIX.noOp.value)
    (hready : layer.stage.ready = true)
    (h : layer.interceptDefault opt hash around call = .ok (layer', done)) :
    Respects around.libc call done := by
  by_cases hwrites : call.Writes
  · exact intercept_respects_of_writes hmode hwrites h
  · apply (intercept_respects_iff_of_reads hmode hwrites hready h).mpr
    have hfirst : Core.First hash layer.stage.agent.core := by
      rw [hcore, Core.newWith_shipped hshipped]
      exact Core.first_createDefaultChannel hshipped (clock 0) createDefaultObjects
    have htoken : layer.stage.agent.core.channelToken hash
        (layer.defaultContext call.classifiers.1 call.classifiers.2).channelTuple =
          hash (decimal 0) := by
      rw [Core.channelToken, hfirst.builder]
      simp only [defaultContext, buildContextObject, hcontext]
      rfl
    rw [Stage.channelOf, htoken]
    exact Finmap.mem_iff.mp ((hfirst.tokens _).mpr rfl)

end Respected

/-! ## Runs -/

end PosixLayer

end Paio
