import Mathlib.Data.List.Basic

/-!
# Paio.Library.FramedStream

Messages that are read from a stream: a header of fixed size, then as many elements as the header
asks for. A read may return fewer elements than it asks for, but at least one while there are any.
The reader keeps one header buffer, which a short read overwrites in part.

`serve` is a reader that takes what each read returns for the whole structure. `serve_frames_iff`
says when it handles exactly the messages that the stream is made of: when no read is short, and
every message is handled with success.
-/

namespace FramedStream

variable {α σ ε : Type}

/-! ## Reads -/

/-- What is left of a stream, and how many reads were made. -/
structure Source (α : Type) where
  pending : List α
  reads : Nat := 0

namespace Source

/-- How much a read returns; `split` limits the reads by their number. -/
def amount (split : Nat → Nat) (count : Nat) (src : Source α) : Nat :=
  min (max 1 (split src.reads)) (min count src.pending.length)

def read (split : Nat → Nat) (count : Nat) (src : Source α) : List α × Source α :=
  (src.pending.take (src.amount split count),
    { pending := src.pending.drop (src.amount split count), reads := src.reads + 1 })

variable {split : Nat → Nat} {count : Nat} {src : Source α}

theorem amount_le_count : src.amount split count ≤ count := by
  unfold amount
  omega

theorem length_read : (src.read split count).1.length = src.amount split count := by
  rw [read, List.length_take]
  unfold amount
  omega

/-- What is read and what is left is what was there. -/
theorem length_pending :
    src.pending.length = (src.read split count).1.length +
      (src.read split count).2.pending.length := by
  rw [length_read, read, List.length_drop]
  unfold amount
  omega

theorem read_eq_nil_iff (hcount : 0 < count) :
    (src.read split count).1 = [] ↔ src.pending = [] := by
  rw [← List.length_eq_zero_iff, ← List.length_eq_zero_iff, length_read]
  unfold amount
  omega

/-- A read that is not limited returns everything it asks for. -/
theorem read_whole {front rest : List α} (h : src.pending = front ++ rest)
    (hwhole : front.length ≤ max 1 (split src.reads)) :
    src.read split front.length = (front, { pending := rest, reads := src.reads + 1 }) := by
  have hamount : src.amount split front.length = front.length := by
    rw [amount, h, List.length_append]
    omega
  rw [read, hamount, h, List.take_left, List.drop_left]

end Source

/-! ## The reader -/

variable (α σ ε) in
/-- How messages are framed and what is done with them. The `i`-th message is handled by
`handle i`. -/
structure Protocol where
  headerSize : Nat
  header_pos : 0 < headerSize
  /-- What is asked for after the header, if anything. -/
  wants : List α → Option Nat
  handle : Nat → σ → List α → List α → Except ε σ

/-- A header and what was received after it. -/
structure Frame (α : Type) where
  header : List α
  payload : List α
  deriving DecidableEq

/-- How a reader ends: the stream is at its end, a message was not handled with success, or the
bound on the messages was too small. -/
inductive End (σ ε : Type) where
  | closed (state : σ)
  | failed (error : ε)
  | outOfFuel

namespace Protocol

variable (P : Protocol α σ ε) (split : Nat → Nat)

/-- The payload of a header, if it asks for one. -/
def readPayload (header : List α) (src : Source α) : List α × Source α :=
  match P.wants header with
  | some count => src.read split count
  | none => ([], src)

/-- The frames that are handled, and how the reader ends. -/
def serve : Nat → Nat → List α → Source α → σ → List (Frame α) × End σ ε
  | 0, _, _, _, _ => ([], .outOfFuel)
  | fuel + 1, i, buffer, src, state =>
    let received := src.read split P.headerSize
    if received.1 = [] then ([], .closed state)
    else
      let header := received.1 ++ buffer.drop received.1.length
      let payload := P.readPayload split header received.2
      match P.handle i state header payload.1 with
      | .error e => ([⟨header, payload.1⟩], .failed e)
      | .ok state' =>
        let rest := serve fuel (i + 1) header payload.2 state'
        (⟨header, payload.1⟩ :: rest.1, rest.2)

/-- A frame as it is sent: a whole header and what it asks for. -/
def Sent (f : Frame α) : Prop :=
  f.header.length = P.headerSize ∧ f.payload.length = (P.wants f.header).getD 0

/-- The stream of a list of frames. -/
def encode (frames : List (Frame α)) : List α := frames.flatMap fun f => f.header ++ f.payload

/-- From the given number of reads on, no read for the frames is short. -/
def Whole : Nat → List (Frame α) → Prop
  | _, [] => True
  | reads, f :: rest =>
    P.headerSize ≤ max 1 (split reads) ∧
      match P.wants f.header with
      | some count => count ≤ max 1 (split (reads + 1)) ∧ Whole (reads + 2) rest
      | none => Whole (reads + 1) rest

/-- The frames, handled one after the other. -/
def handleAll : Nat → σ → List (Frame α) → Except ε σ
  | _, state, [] => .ok state
  | i, state, f :: rest =>
    match P.handle i state f.header f.payload with
    | .ok state' => handleAll (i + 1) state' rest
    | .error e => .error e

variable {P split} {fuel i : Nat} {buffer : List α} {src : Source α} {state state' : σ}

variable (P split) in
theorem length_readPayload (src : Source α) (header : List α) :
    src.pending.length = (P.readPayload split header src).1.length +
      (P.readPayload split header src).2.pending.length := by
  rw [readPayload]
  split
  · exact Source.length_pending
  · simp

/-- Enough fuel is one unit more than the stream has elements. -/
theorem serve_ne_outOfFuel (h : src.pending.length < fuel) :
    (P.serve split fuel i buffer src state).2 ≠ .outOfFuel := by
  induction fuel generalizing i buffer src state with
  | zero => omega
  | succ fuel ih =>
    rw [serve]
    simp only
    split
    · simp
    · rename_i hne
      split
      · simp
      · apply ih
        have hpos : 0 < (src.read split P.headerSize).1.length :=
          List.length_pos_iff.mpr hne
        have hheader : src.pending.length = (src.read split P.headerSize).1.length +
            (src.read split P.headerSize).2.pending.length := Source.length_pending
        have hpayload := P.length_readPayload split (src.read split P.headerSize).2
          ((src.read split P.headerSize).1 ++ buffer.drop (src.read split P.headerSize).1.length)
        omega

/-- A reader that handles a frame and comes to the end of the stream has handled the frame with
success. -/
theorem serve_closed_cons {f : Frame α} {rest : List (Frame α)}
    (h : P.serve split fuel i buffer src state = (f :: rest, .closed state')) :
    ∃ fuel' state₁, fuel = fuel' + 1 ∧
      f.header = (src.read split P.headerSize).1 ++
        buffer.drop (src.read split P.headerSize).1.length ∧
      f.payload = (P.readPayload split f.header (src.read split P.headerSize).2).1 ∧
      P.handle i state f.header f.payload = .ok state₁ ∧
      P.serve split fuel' (i + 1) f.header
        (P.readPayload split f.header (src.read split P.headerSize).2).2 state₁ =
          (rest, .closed state') := by
  cases fuel with
  | zero => cases h
  | succ fuel' =>
    rw [serve] at h
    simp only at h
    split at h
    · cases h
    · split at h
      · cases h
      · rename_i state₁ hhandle
        obtain ⟨hframes, hend⟩ := Prod.mk.inj h
        obtain ⟨rfl, hrest⟩ := List.cons.inj hframes
        exact ⟨fuel', state₁, rfl, rfl, rfl, hhandle, Prod.ext hrest hend⟩

/-- A reader that handles nothing has found the end of the stream at once. -/
theorem serve_closed_nil
    (h : P.serve split fuel i buffer src state = ([], .closed state')) :
    src.pending = [] ∧ state' = state := by
  cases fuel with
  | zero => cases h
  | succ fuel' =>
    rw [serve] at h
    simp only at h
    split at h
    · rename_i hnil
      cases h
      exact ⟨(Source.read_eq_nil_iff P.header_pos).mp hnil, rfl⟩
    · split at h <;> cases h

/-- Every frame of a reader that comes to the end of the stream was handled with success. -/
theorem serve_closed_handled {frames : List (Frame α)}
    (h : P.serve split fuel i buffer src state = (frames, .closed state')) :
    P.handleAll i state frames = .ok state' := by
  induction frames generalizing fuel i buffer src state with
  | nil =>
    obtain ⟨_, rfl⟩ := serve_closed_nil h
    rfl
  | cons f rest ih =>
    obtain ⟨fuel', state₁, rfl, _, _, hhandle, hrest⟩ := serve_closed_cons h
    rw [handleAll, hhandle]
    exact ih hrest

/-- Every one of frames that are all handled with success is. -/
theorem handle_of_handleAll {frames : List (Frame α)}
    (h : P.handleAll i state frames = .ok state') {f : Frame α} (hf : f ∈ frames) :
    ∃ j state₁ state₂, P.handle j state₁ f.header f.payload = .ok state₂ := by
  induction frames generalizing i state with
  | nil => cases hf
  | cons f' rest ih =>
    rw [handleAll] at h
    split at h
    · rename_i state₁ hhandle
      rcases List.mem_cons.mp hf with rfl | hmem
      · exact ⟨i, state, state₁, hhandle⟩
      · exact ih h hmem
    · cases h

theorem encode_cons (f : Frame α) (rest : List (Frame α)) :
    encode (f :: rest) = f.header ++ (f.payload ++ encode rest) := by
  simp [encode]

/-- The frames that were handled account for the stream; if they are as long as it, no read was
short. -/
theorem whole_of_serve_closed {frames : List (Frame α)} (hsent : ∀ f ∈ frames, P.Sent f)
    (h : P.serve split fuel i buffer src state = (frames, .closed state')) :
    src.pending.length ≤ (encode frames).length ∧
      (src.pending.length = (encode frames).length → P.Whole split src.reads frames) := by
  induction frames generalizing fuel i buffer src state with
  | nil =>
    rw [(serve_closed_nil h).1]
    exact ⟨Nat.le_refl 0, fun _ => trivial⟩
  | cons f rest ih =>
    obtain ⟨fuel', state₁, rfl, hheader, hpayload, _, hrest⟩ := serve_closed_cons h
    obtain ⟨hsize, hwants⟩ := hsent f List.mem_cons_self
    obtain ⟨hle, hwhole⟩ := ih (fun f' hf' => hsent f' (List.mem_cons_of_mem f hf')) hrest
    have hread : src.pending.length = (src.read split P.headerSize).1.length +
        (src.read split P.headerSize).2.pending.length := Source.length_pending
    have hamount : (src.read split P.headerSize).1.length = src.amount split P.headerSize :=
      Source.length_read
    have hlimit : src.amount split P.headerSize ≤ P.headerSize := Source.amount_le_count
    have hlength := P.length_readPayload split (src.read split P.headerSize).2 f.header
    rw [← hpayload] at hlength
    rw [encode_cons, List.length_append, List.length_append, hsize]
    refine ⟨by omega, fun heq => ?_⟩
    have hfull : src.amount split P.headerSize = P.headerSize := by omega
    have hrest' := hwhole (by omega)
    have hheaderWhole : P.headerSize ≤ max 1 (split src.reads) := by
      unfold Source.amount at hfull
      omega
    rw [Whole]
    refine ⟨hheaderWhole, ?_⟩
    rw [readPayload] at hpayload hrest'
    cases hw : P.wants f.header with
    | none =>
      rw [hw] at hrest'
      exact hrest'
    | some count =>
      rw [hw] at hrest' hpayload hwants
      refine ⟨?_, hrest'⟩
      have hpayloadLength : ((src.read split P.headerSize).2.read split count).1.length = count := by
        rw [← hpayload]
        exact hwants
      rw [Source.length_read] at hpayloadLength
      unfold Source.amount at hpayloadLength
      have hreads : (src.read split P.headerSize).2.reads = src.reads + 1 := rfl
      rw [hreads] at hpayloadLength
      omega

/-- A frame at the front of the stream that is read as a whole. -/
theorem serve_cons_whole (fuel i : Nat) (state : σ) {f : Frame α} {rest : List (Frame α)}
    (hsent : P.Sent f)
    (hwhole : P.Whole split src.reads (f :: rest)) (hbuffer : buffer.length = P.headerSize)
    (hpending : src.pending = encode (f :: rest)) :
    ∃ src' : Source α, src'.pending = encode rest ∧ P.Whole split src'.reads rest ∧
      P.serve split (fuel + 1) i buffer src state =
        match P.handle i state f.header f.payload with
        | .error e => ([f], .failed e)
        | .ok state₁ =>
          (f :: (P.serve split fuel (i + 1) f.header src' state₁).1,
            (P.serve split fuel (i + 1) f.header src' state₁).2) := by
  obtain ⟨hsize, hwants⟩ := hsent
  obtain ⟨hheaderWhole, hpayloadWhole⟩ := hwhole
  rw [encode_cons] at hpending
  have hpos := P.header_pos
  have hread : src.read split P.headerSize =
      (f.header, { pending := f.payload ++ encode rest, reads := src.reads + 1 }) := by
    rw [← hsize]
    exact Source.read_whole hpending (by omega)
  have hne : f.header ≠ [] := by
    rw [← List.length_pos_iff]
    omega
  have hdrop : f.header ++ buffer.drop f.header.length = f.header := by
    rw [hsize, ← hbuffer, List.drop_length, List.append_nil]
  rw [serve]
  simp only [hread, if_neg hne, hdrop]
  rw [readPayload]
  cases hw : P.wants f.header with
  | none =>
    rw [hw] at hwants hpayloadWhole
    have hnil : f.payload = [] := List.eq_nil_of_length_eq_zero hwants
    refine ⟨{ pending := encode rest, reads := src.reads + 1 }, rfl, hpayloadWhole, ?_⟩
    rw [hnil, List.nil_append]
    cases f
    cases hnil
    rfl
  | some count =>
    rw [hw] at hwants hpayloadWhole
    have hcount : f.payload.length = count := hwants
    have hpayload := @Source.read_whole α split
      { pending := f.payload ++ encode rest, reads := src.reads + 1 } f.payload (encode rest) rfl
      (by rw [hcount]; exact hpayloadWhole.1)
    rw [hcount] at hpayload
    refine ⟨{ pending := encode rest, reads := src.reads + 2 }, rfl, hpayloadWhole.2, ?_⟩
    simp only [hpayload]

/-- Without short reads the reader handles the frames of the stream one after the other. -/
theorem serve_of_whole {frames : List (Frame α)} (hsent : ∀ f ∈ frames, P.Sent f)
    (hwhole : P.Whole split src.reads frames) (hbuffer : buffer.length = P.headerSize)
    (hpending : src.pending = encode frames) (hfuel : src.pending.length < fuel)
    (hhandled : P.handleAll i state frames = .ok state') :
    P.serve split fuel i buffer src state = (frames, .closed state') := by
  obtain ⟨fuel', rfl⟩ : ∃ fuel', fuel = fuel' + 1 := ⟨fuel - 1, by omega⟩
  induction frames generalizing fuel' i buffer src state with
  | nil =>
    cases hhandled
    rw [serve]
    simp only
    rw [if_pos ((Source.read_eq_nil_iff P.header_pos).mpr hpending)]
  | cons f rest ih =>
    obtain ⟨hsize, _⟩ := hsent f List.mem_cons_self
    have hpos := P.header_pos
    have hlength : src.pending.length = f.header.length + (f.payload ++ encode rest).length := by
      rw [hpending, encode_cons, List.length_append]
    rw [List.length_append] at hlength
    obtain ⟨src', hpending', hwhole', hserve⟩ := serve_cons_whole fuel' i state
      (hsent f List.mem_cons_self) hwhole hbuffer hpending
    rw [handleAll] at hhandled
    cases hhandle : P.handle i state f.header f.payload with
    | error e =>
      rw [hhandle] at hhandled
      cases hhandled
    | ok state₁ =>
      rw [hhandle] at hhandled
      obtain ⟨fuel₁, rfl⟩ : ∃ fuel₁, fuel' = fuel₁ + 1 := ⟨fuel' - 1, by omega⟩
      have hrest := ih (fun f' hf' => hsent f' (List.mem_cons_of_mem f hf')) hwhole' hsize
        hpending' hhandled fuel₁ (by rw [hpending']; omega)
      rw [hserve, hhandle]
      simp only [hrest]

/-- The reader handles exactly the frames of the stream, up to its end, if and only if no read is
short and every frame is handled with success. -/
theorem serve_frames_iff {frames : List (Frame α)} (hsent : ∀ f ∈ frames, P.Sent f)
    (hbuffer : buffer.length = P.headerSize) (hfuel : (encode frames).length < fuel) :
    P.serve split fuel i buffer { pending := encode frames } state = (frames, .closed state') ↔
      P.Whole split 0 frames ∧ P.handleAll i state frames = .ok state' := by
  constructor
  · intro h
    exact ⟨(whole_of_serve_closed hsent h).2 rfl, serve_closed_handled h⟩
  · rintro ⟨hwhole, hhandled⟩
    exact serve_of_whole hsent hwhole hbuffer rfl hfuel hhandled

/-! ## Frames that fail -/

/-- When not all frames are handled with success, there is a first one that fails. -/
theorem handleAll_eq_error {frames : List (Frame α)} {e : ε}
    (h : P.handleAll i state frames = .error e) :
    ∃ done f rest state', frames = done ++ f :: rest ∧ P.handleAll i state done = .ok state' ∧
      P.handle (i + done.length) state' f.header f.payload = .error e := by
  induction frames generalizing i state with
  | nil => cases h
  | cons f rest ih =>
    rw [handleAll] at h
    cases hhandle : P.handle i state f.header f.payload with
    | error e' =>
      rw [hhandle] at h
      cases h
      exact ⟨[], f, rest, state, rfl, rfl, hhandle⟩
    | ok state₁ =>
      rw [hhandle] at h
      obtain ⟨done, f', rest', state', rfl, hdone, hfails⟩ := ih h
      refine ⟨f :: done, f', rest', state', rfl, ?_, ?_⟩
      · rw [handleAll, hhandle]
        exact hdone
      · rw [List.length_cons, Nat.add_comm done.length, ← Nat.add_assoc]
        exact hfails

theorem Whole.of_append {done rest : List (Frame α)} {reads : Nat}
    (h : P.Whole split reads (done ++ rest)) : P.Whole split reads done := by
  induction done generalizing reads with
  | nil => trivial
  | cons f done ih =>
    rw [List.cons_append, Whole] at h
    rw [Whole]
    refine ⟨h.1, ?_⟩
    cases hw : P.wants f.header with
    | none =>
      rw [hw] at h
      exact ih h.2
    | some count =>
      rw [hw] at h
      exact ⟨h.2.1, ih h.2.2⟩

/-- Without short reads the reader gets to the first frame that fails, and stops there. -/
theorem serve_failed (src : Source α) {done rest : List (Frame α)} {f : Frame α} {e : ε}
    (hsent : ∀ f' ∈ done ++ f :: rest, P.Sent f')
    (hwhole : P.Whole split src.reads (done ++ f :: rest)) (hbuffer : buffer.length = P.headerSize)
    (hpending : src.pending = encode (done ++ f :: rest)) (hfuel : src.pending.length < fuel)
    (hdone : P.handleAll i state done = .ok state')
    (hfails : P.handle (i + done.length) state' f.header f.payload = .error e) :
    P.serve split fuel i buffer src state = (done ++ [f], .failed e) := by
  obtain ⟨fuel', rfl⟩ : ∃ fuel', fuel = fuel' + 1 := ⟨fuel - 1, by omega⟩
  induction done generalizing fuel' i buffer src state with
  | nil =>
    cases hdone
    obtain ⟨_, _, _, hserve⟩ := serve_cons_whole fuel' i state' (hsent f List.mem_cons_self) hwhole
      hbuffer hpending
    have hhandle : P.handle i state' f.header f.payload = .error e := hfails
    rw [hserve, hhandle]
    rfl
  | cons f₁ done ih =>
    obtain ⟨hsize, _⟩ := hsent f₁ List.mem_cons_self
    have hpos := P.header_pos
    have hlength : src.pending.length =
        f₁.header.length + (f₁.payload ++ encode (done ++ f :: rest)).length := by
      rw [hpending, List.cons_append, encode_cons, List.length_append]
    rw [List.length_append] at hlength
    obtain ⟨src', hpending₁, hwhole', hserve⟩ := serve_cons_whole fuel' i state
      (hsent f₁ List.mem_cons_self) hwhole hbuffer hpending
    have hpending' : src'.pending = encode (done ++ f :: rest) := hpending₁
    rw [handleAll] at hdone
    cases hhandle : P.handle i state f₁.header f₁.payload with
    | error e' =>
      rw [hhandle] at hdone
      cases hdone
    | ok state₁ =>
      rw [hhandle] at hdone
      rw [List.length_cons, Nat.add_comm done.length, ← Nat.add_assoc] at hfails
      obtain ⟨fuel₁, rfl⟩ : ∃ fuel₁, fuel' = fuel₁ + 1 := ⟨fuel' - 1, by omega⟩
      have hrest := ih src' (fun f' hf' => hsent f' (List.mem_cons_of_mem f₁ hf')) hwhole' hsize
        hpending' hdone hfails fuel₁ (by rw [hpending']; omega)
      rw [hserve, hhandle]
      simp only [hrest, List.cons_append]

/-- Without short reads the reader ends as the frames do that are handled one after the other. -/
theorem serve_end (src : Source α) {frames : List (Frame α)} (hsent : ∀ f ∈ frames, P.Sent f)
    (hwhole : P.Whole split src.reads frames) (hbuffer : buffer.length = P.headerSize)
    (hpending : src.pending = encode frames) (hfuel : src.pending.length < fuel) :
    (P.serve split fuel i buffer src state).2 =
      match P.handleAll i state frames with
      | .ok state' => .closed state'
      | .error e => .failed e := by
  cases hall : P.handleAll i state frames with
  | ok state' => rw [serve_of_whole hsent hwhole hbuffer hpending hfuel hall]
  | error e =>
    obtain ⟨done, f, rest, state', rfl, hdone, hfails⟩ := handleAll_eq_error hall
    rw [serve_failed src hsent hwhole hbuffer hpending hfuel hdone hfails]

end Protocol

end FramedStream
