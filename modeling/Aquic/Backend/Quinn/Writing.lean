import Aquic.Backend.Quinn.Application

/-!
# Writing to a stream of the quinn backend

`stream_send` offers its bytes to quinn as an array of one chunk. What quinn accepts is taken out of the
chunk; whether the chunk was written completely is told by a count of chunks. `FIN` waits until all bytes
are written, and what is left of the chunk is returned to the caller, who submits it again.

Here the array and the counts are modelled, together with the calls on the stream; `streamSend` is the
same without them.
-/

namespace Aquic.Backend.Quinn

open Aquic.Stream

/-- `quinn_proto::Written`. -/
structure Written where
  /-- Bytes successfully written. -/
  bytes : Nat
  /-- Chunks that were written completely. -/
  chunks : Nat
  deriving DecidableEq, Repr

/-- `send_stream(..).write_chunks(..)`, with the chunks it leaves behind. -/
abbrev WriteChunks (Conn : Type) :=
  Conn → StreamId → List (List UInt8) → Conn × List (List UInt8) × Except WriteError Written

/-- What `write_chunks` does with one chunk: it accepts a prefix and leaves exactly the rest, and a chunk
counts when nothing of it is left. After an error the chunk is as it was. -/
structure AcceptsPrefix {Conn : Type} (writeChunks : WriteChunks Conn) : Prop where
  written : ∀ c streamId bytes c' chunks w, writeChunks c streamId [bytes] = (c', chunks, .ok w) →
    w.bytes ≤ bytes.length ∧ chunks = [bytes.drop w.bytes] ∧
      w.chunks = if w.bytes = bytes.length then 1 else 0
  failed : ∀ c streamId bytes c' chunks e,
    writeChunks c streamId [bytes] = (c', chunks, .error e) → chunks = [bytes]

/-- What `stream_send` does to a stream. -/
inductive StreamCall (Conn : Type) where
  /-- `write_chunks`, which accepts these bytes. -/
  | writeChunks (accepted : List UInt8)
  /-- `finish`, on the connection as it is then. -/
  | finish (c : Conn)
  deriving DecidableEq, Repr

namespace StreamCall

variable {Conn : Type}

def bytes : StreamCall Conn → List UInt8
  | writeChunks accepted => accepted
  | finish _ => []

end StreamCall

section

variable {Conn : Type}

/-- The bytes that were accepted by all the calls. -/
def accepted (calls : List (StreamCall Conn)) : List UInt8 := calls.flatMap StreamCall.bytes

theorem accepted_append (calls calls' : List (StreamCall Conn)) :
    accepted (calls ++ calls') = accepted calls ++ accepted calls' :=
  List.flatMap_append

/-- None of the calls is `finish`. -/
def NeverFinished (calls : List (StreamCall Conn)) : Prop := ∀ c, .finish c ∉ calls

theorem neverFinished_nil : NeverFinished ([] : List (StreamCall Conn)) :=
  fun _ => List.not_mem_nil

theorem neverFinished_write (accepted : List UInt8) :
    NeverFinished [(.writeChunks accepted : StreamCall Conn)] := by
  simp [NeverFinished]

theorem NeverFinished.append {calls calls' : List (StreamCall Conn)} (h : NeverFinished calls)
    (h' : NeverFinished calls') : NeverFinished (calls ++ calls') := by
  intro c
  rw [List.mem_append]
  exact not_or.mpr ⟨h c, h' c⟩

end

namespace EndpointBackend

variable {Conn End Cfg Incoming Signal Report : Type}
  (env : Env Conn End Cfg Incoming Signal Report) (writeChunks : WriteChunks Conn)

/-! ## The source -/

/-- The writing part of `stream_send`: the chunk that is left, and whether it was completely written;
`none` is a failed assertion. -/
def writeStream (c : Conn) (streamId : StreamId) (bytes : List UInt8) :
    Option (Conn × List UInt8 × List (StreamCall Conn) × Except Error Bool) :=
  if bytes = [] then
    some (c, bytes, [], .ok true)
  else
    match writeChunks c streamId [bytes] with
    | (c, chunks, .ok written) =>
      -- `debug_assert!(written.chunks <= 1)`
      if 1 < written.chunks then
        none
      else
        some (c, chunks.headD [], [.writeChunks (bytes.take written.bytes)],
          .ok (written.chunks == 1))
    | (c, chunks, .error .blocked) => some (c, chunks.headD [], [.writeChunks []], .ok false)
    | (c, chunks, .error (.stopped code)) =>
      some (c, chunks.headD [], [.writeChunks []], .error (.streamStop code))
    | (c, chunks, .error .closedStream) =>
      some (c, chunks.headD [], [.writeChunks []], .error .unknownStream)

/-- The call of `finish` in `stream_send`. -/
def finishStream (c : Conn) (streamId : StreamId) : Conn × Except Error Unit :=
  match env.quinn.finish c streamId with
  | (c, .ok _) => (c, .ok ())
  | (c, .error (.stopped code)) => (c, .error (.streamStop code))
  | (c, .error .closedStream) => (c, .error .unknownStream)

/-- `stream_send`, from the stream on. -/
def sendOn (c : Conn) (streamId : StreamId) (bytes : List UInt8) (fin : Bool) :
    Option (Conn × List (StreamCall Conn) × Except Error (Option (List UInt8))) :=
  match writeStream writeChunks c streamId bytes with
  | none => none
  | some (c, _, calls, .error e) => some (c, calls, .error e)
  | some (c, chunk, calls, .ok completelyWritten) =>
    if fin && completelyWritten then
      match finishStream env c streamId with
      | (c', .error e) => some (c', calls ++ [.finish c], .error e)
      | (c', .ok _) => some (c', calls ++ [.finish c], .ok none)
    else
      some (c, calls, .ok (if completelyWritten then none else some chunk))

/-- `stream_send`, with its calls on the stream. -/
def streamSendCalls (b : EndpointBackend Conn End Cfg) (id : QuinnConnectionId)
    (streamId : StreamId) (bytes : List UInt8) (fin : Bool) :
    Option (EndpointBackend Conn End Cfg × List (StreamCall Conn) × Except Error (Option (List UInt8))) :=
  if b.isOpen = false then
    some (b, [], .error .closed)
  else if streamId.isServer && streamId.isUni then
    some (b, [], .error .illegal)
  else
    match b.getOpen env.quinn id with
    | none => some (b, [], .error .unknownConnection)
    | some (backend, c) =>
      (sendOn env writeChunks c.inner streamId bytes fin).map fun (inner, calls, result) =>
        ({ b with toQuinnBackend := backend.put id.key { c with inner } }, calls, result)

/-- The caller submits the unsent bytes again, with the same `fin`, until it has got `None` or an error, or
gives up. In between the backend may do anything. -/
inductive Submits (id : QuinnConnectionId) (streamId : StreamId) (fin : Bool) :
    List UInt8 → List (StreamCall Conn) → Except Error (Option (List UInt8)) → Prop
  | call {b b' : EndpointBackend Conn End Cfg} {bytes : List UInt8} {calls : List (StreamCall Conn)}
      {result : Except Error (Option (List UInt8))} :
      b.streamSendCalls env writeChunks id streamId bytes fin = some (b', calls, result) →
      Submits id streamId fin bytes calls result
  | again {b b' : EndpointBackend Conn End Cfg} {bytes rest : List UInt8}
      {calls calls' : List (StreamCall Conn)} {result : Except Error (Option (List UInt8))} :
      b.streamSendCalls env writeChunks id streamId bytes fin = some (b', calls, .ok (some rest)) →
      Submits id streamId fin rest calls' result →
      Submits id streamId fin bytes (calls ++ calls') result

/-! ## What is sent -/

/-- What a failure of `finish` is to the caller. -/
def finishFailure : FinishError → Error
  | .stopped code => .streamStop code
  | .closedStream => .unknownStream

/-- The last of the calls is the only `finish`, and this is quinn's answer to it. -/
def FinishedWith (env : Env Conn End Cfg Incoming Signal Report) (streamId : StreamId)
    (calls : List (StreamCall Conn)) (answer : Except FinishError Unit) : Prop :=
  ∃ writes c, calls = writes ++ [.finish c] ∧ NeverFinished writes ∧
    (env.quinn.finish c streamId).2 = answer

/-- Nothing is lost or sent twice, and `FIN` comes last. -/
structure SentExactly (env : Env Conn End Cfg Incoming Signal Report) (streamId : StreamId)
    (bytes : List UInt8) (fin : Bool) (calls : List (StreamCall Conn))
    (result : Except Error (Option (List UInt8))) : Prop where
  sent : result = .ok none → accepted calls = bytes
  /-- `finish` is called if `fin` is set, and quinn has accepted it. -/
  finished : result = .ok none → fin = true → FinishedWith env streamId calls (.ok ())
  unfinished : fin = false → NeverFinished calls
  unsent : ∀ rest, result = .ok (some rest) →
    bytes = accepted calls ++ rest ∧ rest ≠ [] ∧ NeverFinished calls
  /-- An error after `finish` is the one that quinn has answered. -/
  failed : ∀ e, result = .error e → accepted calls <+: bytes ∧
    (NeverFinished calls ∨ fin = true ∧ accepted calls = bytes ∧
      ∃ error, FinishedWith env streamId calls (.error error) ∧ e = finishFailure error)

variable {env} {writeChunks} {streamId : StreamId} {bytes : List UInt8} {fin : Bool}
  {calls : List (StreamCall Conn)}

/-- A failure of the writing itself: `finish` has not been called. -/
theorem SentExactly.writeFailed (haccepted : accepted calls <+: bytes) (hnever : NeverFinished calls)
    (e : Error) : SentExactly env streamId bytes fin calls (.error e) where
  sent h := by cases h
  finished h := by cases h
  unfinished _ := hnever
  unsent rest h := by cases h
  failed e _ := ⟨haccepted, .inl hnever⟩

/-- A call that fails before it reaches the stream. -/
theorem SentExactly.rejected (e : Error) : SentExactly env streamId bytes fin [] (.error e) := by
  apply SentExactly.writeFailed
  · exact List.nil_prefix
  · exact neverFinished_nil

/-- A part of the bytes is left for the next call. -/
theorem SentExactly.partly {rest : List UInt8} (hbytes : bytes = accepted calls ++ rest)
    (hrest : rest ≠ []) (hnever : NeverFinished calls) :
    SentExactly env streamId bytes fin calls (.ok (some rest)) where
  sent h := by cases h
  finished h := by cases h
  unfinished _ := hnever
  unsent rest h := by
    cases h
    exact ⟨hbytes, hrest, hnever⟩
  failed e h := by cases h

/-- All the bytes are written, and there is no `FIN` to send. -/
theorem SentExactly.written (hbytes : accepted calls = bytes) (hnever : NeverFinished calls) :
    SentExactly env streamId bytes false calls (.ok none) where
  sent _ := hbytes
  finished _ hfin := by cases hfin
  unfinished _ := hnever
  unsent rest h := by cases h
  failed e h := by cases h

/-- All the bytes are written, and quinn has answered `finish`. -/
theorem SentExactly.answered {answer : Except FinishError Unit} (hbytes : accepted calls = bytes)
    (hfinished : FinishedWith env streamId calls answer) :
    SentExactly env streamId bytes true calls
      ((answer.mapError finishFailure).map fun _ => none) where
  sent _ := hbytes
  finished h _ := by
    cases answer with
    | ok _ => exact hfinished
    | error error => cases h
  unfinished hfin := by cases hfin
  unsent rest h := by
    cases answer with
    | ok _ => cases h
    | error error => cases h
  failed e h := by
    cases answer with
    | ok _ => cases h
    | error error =>
      cases h
      exact ⟨hbytes ▸ List.prefix_refl _, .inr ⟨rfl, hbytes, error, hfinished, rfl⟩⟩

/-- The call of `finish` gives what quinn answers. -/
theorem finishStream_eq (env : Env Conn End Cfg Incoming Signal Report) (c : Conn)
    (streamId : StreamId) :
    finishStream env c streamId = ((env.quinn.finish c streamId).1,
      (env.quinn.finish c streamId).2.mapError finishFailure) := by
  unfold finishStream
  rcases env.quinn.finish c streamId with ⟨c', (_ | _) | _⟩ <;> rfl

/-- What the writing part leaves for the rest of the call. -/
structure Wrote (bytes : List UInt8) (chunk : List UInt8) (calls : List (StreamCall Conn))
    (result : Except Error Bool) : Prop where
  offered : bytes = accepted calls ++ chunk
  neverFinished : NeverFinished calls
  /-- The chunk is completely written when nothing is left. -/
  complete : ∀ completelyWritten, result = .ok completelyWritten →
    (completelyWritten = true ↔ chunk = [])

theorem writeStream_spec (h : AcceptsPrefix writeChunks) (c : Conn) (streamId : StreamId)
    (bytes : List UInt8) :
    ∃ c' chunk calls result, writeStream writeChunks c streamId bytes =
      some (c', chunk, calls, result) ∧ Wrote bytes chunk calls result := by
  unfold writeStream
  by_cases hbytes : bytes = []
  · rw [if_pos hbytes]
    refine ⟨c, bytes, [], .ok true, rfl, rfl, neverFinished_nil, ?_⟩
    intro completelyWritten heq
    cases heq
    simp [hbytes]
  · rw [if_neg hbytes]
    rcases hwrite : writeChunks c streamId [bytes] with ⟨c', chunks, written⟩
    cases written with
    | ok written =>
      obtain ⟨hle, hchunks, hcount⟩ := h.written c streamId bytes c' chunks written hwrite
      have hone : ¬1 < written.chunks := by
        rw [hcount]
        split <;> decide
      refine ⟨c', _, _, _, if_neg hone, ?_, neverFinished_write _, ?_⟩
      · simp [hchunks, accepted, StreamCall.bytes]
      · intro completelyWritten heq
        cases heq
        rw [hchunks, hcount]
        -- the chunk counts exactly if all of its bytes were accepted
        by_cases hall : written.bytes = bytes.length
        · simp [hall]
        · simp only [hall, if_false, List.headD_cons, List.drop_eq_nil_iff]
          simp only [Nat.reduceBEq, Bool.false_eq_true, false_iff]
          omega
    | error e =>
      have hchunks := h.failed c streamId bytes c' chunks e hwrite
      have hrest : bytes = accepted [(.writeChunks [] : StreamCall Conn)] ++ chunks.headD [] := by
        rw [hchunks]
        rfl
      cases e with
      | blocked =>
        refine ⟨c', _, _, _, rfl, hrest, neverFinished_write _, ?_⟩
        intro completelyWritten heq
        cases heq
        simp [hchunks, hbytes]
      | stopped code =>
        exact ⟨c', _, _, _, rfl, hrest, neverFinished_write _, fun _ heq => by cases heq⟩
      | closedStream =>
        exact ⟨c', _, _, _, rfl, hrest, neverFinished_write _, fun _ heq => by cases heq⟩

variable (env) in
/-- **One call**: it returns, and what it returns is what was not sent. -/
theorem sendOn_spec (h : AcceptsPrefix writeChunks) (c : Conn) (streamId : StreamId)
    (bytes : List UInt8) (fin : Bool) :
    ∃ c' calls result, sendOn env writeChunks c streamId bytes fin = some (c', calls, result) ∧
      SentExactly env streamId bytes fin calls result := by
  obtain ⟨c', chunk, calls, written, hwrite, hwrote⟩ := writeStream_spec h c streamId bytes
  have hnever := hwrote.neverFinished
  unfold sendOn
  rw [hwrite]
  cases written with
  | error e =>
    exact ⟨c', calls, _, rfl, .writeFailed ⟨chunk, hwrote.offered.symm⟩ hnever e⟩
  | ok completelyWritten =>
    have hcomplete := hwrote.complete completelyWritten rfl
    cases completelyWritten with
    | false =>
      have hchunk : chunk ≠ [] := fun heq => Bool.false_ne_true (hcomplete.mpr heq)
      refine ⟨c', calls, .ok (some chunk), ?_, .partly hwrote.offered hchunk hnever⟩
      simp
    | true =>
      have hall : accepted calls = bytes := by
        rw [hwrote.offered, hcomplete.mp rfl, List.append_nil]
      cases fin with
      | false =>
        refine ⟨c', calls, .ok none, ?_, .written hall hnever⟩
        simp
      | true =>
        have hall' : accepted (calls ++ [.finish c']) = bytes := by
          rw [accepted_append, hall]
          exact List.append_nil _
        rcases hfinish : env.quinn.finish c' streamId with ⟨c'', answer⟩
        have hfinished : FinishedWith env streamId (calls ++ [.finish c']) answer :=
          ⟨calls, c', rfl, hnever, congrArg Prod.snd hfinish⟩
        have heq := finishStream_eq env c' streamId
        rw [hfinish] at heq
        refine ⟨c'', calls ++ [.finish c'], _, ?_, .answered hall' hfinished⟩
        simp only [Bool.and_self, if_true, heq]
        cases answer <;> rfl

variable (env) in
theorem streamSendCalls_spec (h : AcceptsPrefix writeChunks) (b : EndpointBackend Conn End Cfg)
    (id : QuinnConnectionId) (streamId : StreamId) (bytes : List UInt8) (fin : Bool) :
    ∃ b' calls result,
      b.streamSendCalls env writeChunks id streamId bytes fin = some (b', calls, result) ∧
      SentExactly env streamId bytes fin calls result := by
  unfold streamSendCalls
  split
  · exact ⟨b, [], _, rfl, .rejected _⟩
  · split
    · exact ⟨b, [], _, rfl, .rejected _⟩
    · cases hopen : b.getOpen env.quinn id with
      | none => exact ⟨b, [], _, rfl, .rejected _⟩
      | some opened =>
        obtain ⟨c', calls, result, hsend, hexact⟩ :=
          sendOn_spec env h opened.2.inner streamId bytes fin
        refine ⟨{ b with
            toQuinnBackend := opened.1.put id.key { opened.2 with inner := c' } }, calls, result, ?_,
          hexact⟩
        simp only
        rw [hsend]
        rfl

/-- Before the last call there was none of `finish`. -/
theorem FinishedWith.append {calls' : List (StreamCall Conn)} {answer : Except FinishError Unit}
    (hcalls : NeverFinished calls) (h : FinishedWith env streamId calls' answer) :
    FinishedWith env streamId (calls ++ calls') answer := by
  obtain ⟨writes, c, rfl, hwrites, hanswer⟩ := h
  exact ⟨calls ++ writes, c, (List.append_assoc ..).symm, hcalls.append hwrites, hanswer⟩

/-- The unsent bytes are submitted again. -/
theorem SentExactly.again {rest : List UInt8} {calls' : List (StreamCall Conn)}
    {result : Except Error (Option (List UInt8))}
    (h : SentExactly env streamId bytes fin calls (.ok (some rest)))
    (h' : SentExactly env streamId rest fin calls' result) :
    SentExactly env streamId bytes fin (calls ++ calls') result := by
  obtain ⟨hbytes, -, hnever⟩ := h.unsent rest rfl
  refine ⟨?_, ?_, ?_, ?_, ?_⟩
  · intro hresult
    rw [accepted_append, h'.sent hresult, hbytes]
  · intro hresult hfin
    exact .append hnever (h'.finished hresult hfin)
  · intro hfin
    exact hnever.append (h'.unfinished hfin)
  · intro rest' hresult
    obtain ⟨hrest, hne, hcalls⟩ := h'.unsent rest' hresult
    refine ⟨?_, hne, hnever.append hcalls⟩
    rw [accepted_append, List.append_assoc, ← hrest, hbytes]
  · intro e hresult
    obtain ⟨haccepted, hfin⟩ := h'.failed e hresult
    rw [accepted_append, hbytes]
    refine ⟨List.prefix_append_right_inj _ |>.mpr haccepted, ?_⟩
    rcases hfin with hcalls | ⟨hset, hall, error, hfinished, he⟩
    · exact .inl (hnever.append hcalls)
    · exact .inr ⟨hset, by rw [hall], error, .append hnever hfinished, he⟩

/-- **Partial writes lose nothing and `FIN` comes last**, over any number of calls; a call returns, and
without bytes it is never partial. -/
theorem submits_exactly (h : AcceptsPrefix writeChunks) (id : QuinnConnectionId)
    (streamId : StreamId) :
    (∀ fin bytes calls result,
      Submits env writeChunks id streamId fin bytes calls result →
      SentExactly env streamId bytes fin calls result) ∧
    (∀ (b : EndpointBackend Conn End Cfg) bytes fin, ∃ b' calls result,
      b.streamSendCalls env writeChunks id streamId bytes fin = some (b', calls, result)) ∧
    ∀ (b b' : EndpointBackend Conn End Cfg) fin calls rest,
      b.streamSendCalls env writeChunks id streamId [] fin ≠ some (b', calls, .ok (some rest)) := by
  have hone {b b' : EndpointBackend Conn End Cfg} {bytes : List UInt8} {fin : Bool}
      {calls : List (StreamCall Conn)} {result : Except Error (Option (List UInt8))}
      (hcall : b.streamSendCalls env writeChunks id streamId bytes fin = some (b', calls, result)) :
      SentExactly env streamId bytes fin calls result := by
    obtain ⟨_, _, _, hcall', hexact⟩ := streamSendCalls_spec env h b id streamId bytes fin
    rw [hcall] at hcall'
    cases hcall'
    exact hexact
  refine ⟨?_, ?_, ?_⟩
  · intro fin bytes calls result hsubmits
    induction hsubmits with
    | call hcall => exact hone hcall
    | again hcall _ ih => exact (hone hcall).again ih
  · intro b bytes fin
    obtain ⟨b', calls, result, hcall, -⟩ :=
      streamSendCalls_spec env h b id streamId bytes fin
    exact ⟨b', calls, result, hcall⟩
  · intro b b' fin calls rest hcall
    obtain ⟨hnil, hne, -⟩ := (hone hcall).unsent rest rfl
    exact hne (List.append_eq_nil_iff.mp hnil.symm).2

/-! ## The two models of `stream_send` -/

/-- What is left of the chunk, if it was not written completely. -/
def leftOver : Conn × List (List UInt8) × Except WriteError Written →
    Conn × Except WriteError (Option (List UInt8))
  | (c, chunks, .ok written) => (c, .ok (if written.chunks = 1 then none else chunks.head?))
  | (c, _, .error e) => (c, .error e)

/-- **`streamSend` forgets the chunks** and the calls on the stream. -/
theorem streamSend_eq (h : AcceptsPrefix writeChunks)
    (hleft : ∀ c streamId bytes,
      env.quinn.writeChunk c streamId bytes = leftOver (writeChunks c streamId [bytes]))
    (b : EndpointBackend Conn End Cfg) (id : QuinnConnectionId) (streamId : StreamId)
    (bytes : List UInt8) (fin : Bool) :
    (b.streamSendCalls env writeChunks id streamId bytes fin).map (fun r => (r.1, r.2.2)) =
      some (b.streamSend env id streamId bytes fin) := by
  unfold streamSendCalls streamSend
  by_cases hclosed : b.isOpen = false
  · rw [if_pos hclosed, if_pos hclosed]
    rfl
  rw [if_neg hclosed, if_neg hclosed]
  by_cases hillegal : (streamId.isServer && streamId.isUni) = true
  · rw [if_pos hillegal, if_pos hillegal]
    rfl
  rw [if_neg hillegal, if_neg hillegal]
  rcases b.getOpen env.quinn id with _ | ⟨backend, c⟩
  · rfl
  simp only [sendOn, writeStream]
  by_cases hbytes : bytes = []
  · simp only [if_pos hbytes, finishStream]
    cases fin with
    | false => rfl
    | true => rcases env.quinn.finish c.inner streamId with ⟨_, (_ | _) | _⟩ <;> rfl
  · simp only [if_neg hbytes, hleft]
    rcases hwrite : writeChunks c.inner streamId [bytes] with ⟨c', chunks, e | written⟩
    · have hchunks := h.failed _ _ _ _ _ _ hwrite
      cases e with
      | blocked => cases fin <;> simp [leftOver, hchunks]
      | stopped code => rfl
      | closedStream => rfl
    · obtain ⟨-, hchunks, hcount⟩ := h.written _ _ _ _ _ _ hwrite
      by_cases hall : written.bytes = bytes.length
      · rw [if_pos hall] at hcount
        simp only [leftOver, hcount, Nat.lt_irrefl, if_false, if_true, finishStream]
        cases fin with
        | false => rfl
        | true => rcases env.quinn.finish c' streamId with ⟨_, (_ | _) | _⟩ <;> rfl
      · rw [if_neg hall] at hcount
        cases fin <;> simp [leftOver, hcount, hchunks]

/-! ## Two bytes at a time -/

/-- Streams that accept two bytes in a call, and whose end is accepted. -/
def narrowEnv : Env Bool Unit Unit Unit Unit Unit where
  quinn := { idleLibrary with finish := fun c _ => (c, .ok ()) }
  endpoint := {
    connect := fun _ _ _ _ _ => ((), .ok (0, false))
    handle := fun _ _ _ _ _ _ => ((), none, [])
    handleEvent := fun _ _ _ => ((), none)
    ignore := fun _ _ => ()
    retry := fun _ incoming => ((), .error incoming)
    accept := fun _ _ _ _ => ((), .error none)
    remoteAddressValidated := fun _ => true
    deliver := fun c _ => c
    pollEndpointEvents := fun c => (c, []) }

def writeTwo : WriteChunks Bool := fun c _ chunks =>
  let chunk := chunks.headD []
  (c, [chunk.drop (min 2 chunk.length)],
    .ok ⟨min 2 chunk.length, if min 2 chunk.length = chunk.length then 1 else 0⟩)

theorem acceptsPrefix_writeTwo : AcceptsPrefix writeTwo where
  written c streamId bytes c' chunks w h := by
    cases h
    exact ⟨Nat.min_le_right .., rfl, rfl⟩
  failed c streamId bytes c' chunks e h := by cases h

/-- A client with one connection. -/
def narrowBackend : EndpointBackend Bool Unit Unit :=
  ((new { client := some (), server := none } () [] [] .localhost .zero).connect narrowEnv ""
    ⟨.localhost, 443⟩).1

/-- Three bytes and `FIN` take two calls. -/
theorem submits_exactly_two_calls : ∃ calls,
    Submits narrowEnv writeTwo ⟨0, 0⟩ (.initial true true) true [1, 2, 3]
      calls (.ok none) ∧
    calls = [.writeChunks [1, 2], .writeChunks [3], .finish false] ∧ accepted calls = [1, 2, 3] := by
  have hfirst : (narrowBackend.streamSendCalls narrowEnv writeTwo ⟨0, 0⟩ (.initial true true)
      [1, 2, 3] true).map (·.2) = some ([.writeChunks [1, 2]], .ok (some [3])) := by
    decide +kernel
  have hsecond : (narrowBackend.streamSendCalls narrowEnv writeTwo ⟨0, 0⟩ (.initial true true)
      [3] true).map (·.2) = some ([.writeChunks [3], .finish false], .ok none) := by
    decide +kernel
  obtain ⟨⟨b₁, first⟩, hfirst, rfl⟩ := Option.map_eq_some_iff.mp hfirst
  obtain ⟨⟨b₂, second⟩, hsecond, rfl⟩ := Option.map_eq_some_iff.mp hsecond
  have hsubmits := Submits.again hfirst (.call hsecond)
  have hexact := (submits_exactly acceptsPrefix_writeTwo _ _).1 _ _ _ _ hsubmits
  exact ⟨_, hsubmits, rfl, hexact.sent rfl⟩

end EndpointBackend

end Aquic.Backend.Quinn
