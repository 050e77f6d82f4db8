import Aquic.Backend.Quinn.Application
import Aquic.Lib.Run

/-!
# Reading from a stream of the quinn backend

`stream_recv` fills one buffer from any number of chunks:

    out[offset..chunk.bytes.len()].copy_from_slice(chunk.bytes.as_ref());
    offset += chunk.bytes.len();

The end of the slice should be `offset + chunk.bytes.len()`. Without the offset the slice has the right
length for the first chunk only, and `copy_from_slice` panics on the next one. Here the loop is
modelled with its buffer; `streamRecv` is the same without what lies beyond the bytes read.
-/

namespace Aquic.Backend.Quinn

open Aquic.Run Aquic.Stream

/-- `out[lo..hi].copy_from_slice(bytes)`; `none` is a panic. -/
def copyFromSlice (out : List UInt8) (lo hi : Nat) (bytes : List UInt8) : Option (List UInt8) :=
  if lo ≤ hi ∧ hi ≤ out.length ∧ bytes.length = hi - lo then
    some (out.take lo ++ bytes ++ out.drop hi)
  else
    none

/-- A slice from a later position to the length of the chunk has another length than the chunk. -/
theorem copyFromSlice_length (out : List UInt8) (offset : Nat) (bytes : List UInt8) :
    copyFromSlice out offset bytes.length bytes =
      if offset = 0 ∧ bytes.length ≤ out.length then some (bytes ++ out.drop bytes.length)
      else none := by
  unfold copyFromSlice
  by_cases hoffset : offset = 0
  · subst hoffset
    simp
  · rw [if_neg (by omega), if_neg (by omega)]

namespace EndpointBackend

variable {Conn End Cfg Incoming Signal Report : Type}
  (env : Env Conn End Cfg Incoming Signal Report)

/-- The loop of `stream_recv`, with its buffer. -/
def copyLoop (streamId : StreamId) : Nat → Conn → List UInt8 → Nat →
    Option (Conn × List UInt8 × Except Error (Nat × Bool))
  | 0, _, _, _ => none
  | fuel + 1, c, out, offset =>
    if out.length ≤ offset then
      some (c, out, .ok (offset, false))
    else
      match env.quinn.nextChunk c streamId (out.length - offset) with
      | (c, .ok (some bytes)) =>
        match copyFromSlice out offset bytes.length bytes with
        | none => none
        | some out => copyLoop streamId fuel c out (offset + bytes.length)
      | (c, .ok none) => some (c, out, .ok (offset, true))
      | (c, .error .blocked) => some (c, out, .ok (offset, false))
      | (c, .error (.reset code)) => some (c, out, .error (.streamReset code))

/-- `stream_recv` with its buffer: the number of bytes, and whether the stream is finished. -/
def streamRecvInto (b : EndpointBackend Conn End Cfg) (id : QuinnConnectionId)
    (streamId : StreamId) (out : List UInt8) (fuel : Nat) :
    Option (EndpointBackend Conn End Cfg × List UInt8 × Except Error (Nat × Bool)) :=
  if b.isOpen = false then
    some (b, out, .error .closed)
  else if streamId.isClient && streamId.isUni then
    some (b, out, .error .illegal)
  else if out = [] then
    some (b, out, .error .bufferSize)
  else
    match b.getOpen env.quinn id with
    | none => some (b, out, .error .unknownConnection)
    | some (backend, c) =>
      match env.quinn.readStream c.inner streamId with
      | (inner, .error .closedStream) =>
        some ({ b with toQuinnBackend := backend.put id.key { c with inner } }, out,
          .error .unknownStream)
      | (inner, .error .illegalOrderedRead) =>
        some ({ b with toQuinnBackend := backend.put id.key { c with inner } }, out,
          .error (.other (env.quinn.display .illegalOrderedRead)))
      | (inner, .ok _) =>
        (copyLoop env streamId fuel inner out 0).map fun (inner, out, result) =>
          ({ b with toQuinnBackend := backend.put id.key { c with inner } }, out, result)

variable {env} {streamId : StreamId}

/-! ## The two models of the loop -/

/-- The bytes read, of a buffer and a result. -/
def bytesRead (out : List UInt8) (result : Except Error (Nat × Bool)) :
    Except Error (List UInt8 × Bool) :=
  result.map fun (n, fin) => (out.take n, fin)

theorem readLoop_eq_copyLoop (fuel : Nat) (c : Conn) (read rest : List UInt8) :
    readLoop env streamId (read ++ rest).length fuel c read =
      (copyLoop env streamId fuel c (read ++ rest) read.length).map fun (c, out, result) =>
        (c, bytesRead out result) := by
  induction fuel generalizing c read rest with
  | zero => rfl
  | succ fuel ih =>
    have hread (c : Conn) (fin : Bool) : some (c, Except.ok (read, fin)) =
        some (c, bytesRead (read ++ rest) (.ok (read.length, fin))) := by
      show _ = some (c, Except.ok ((read ++ rest).take read.length, fin))
      rw [List.take_left]
    unfold readLoop copyLoop
    by_cases hfull : (read ++ rest).length ≤ read.length
    · rw [if_pos hfull, if_pos hfull]
      exact hread c false
    · rw [if_neg hfull, if_neg hfull]
      generalize env.quinn.nextChunk c streamId ((read ++ rest).length - read.length) = result
      obtain ⟨c, result⟩ := result
      rcases result with error | chunk
      · cases error with
        | blocked => exact hread c false
        | reset code => rfl
      · cases chunk with
        | none => exact hread c true
        | some bytes =>
          -- `out[offset..bytes.len()]` has the length of the chunk at offset zero only
          simp only
          rw [copyFromSlice_length]
          by_cases hfits : read = [] ∧ bytes.length ≤ (read ++ rest).length
          · rw [if_pos hfits, if_pos ⟨List.length_eq_zero_iff.mpr hfits.1, hfits.2⟩]
            have hlength : (bytes ++ (read ++ rest).drop bytes.length).length =
                (read ++ rest).length := by
              rw [List.length_append, List.length_drop]
              omega
            have hnext := ih c bytes ((read ++ rest).drop bytes.length)
            rw [hlength] at hnext
            rw [hnext, hfits.1, List.length_nil, Nat.zero_add]
          · rw [if_neg hfits, if_neg fun h => hfits ⟨List.length_eq_zero_iff.mp h.1, h.2⟩]
            rfl

/-- **`streamRecv` forgets the buffer**, but for the bytes that were read. -/
theorem streamRecv_eq (b : EndpointBackend Conn End Cfg) (id : QuinnConnectionId)
    (streamId : StreamId) (out : List UInt8) (fuel : Nat) :
    b.streamRecv env id streamId out.length fuel =
      (b.streamRecvInto env id streamId out fuel).map fun (b, out, result) =>
        (b, bytesRead out result) := by
  unfold streamRecv streamRecvInto
  simp only [List.length_eq_zero_iff]
  split
  · rfl
  · split
    · rfl
    · split
      · rfl
      · generalize b.getOpen env.quinn id = opened
        rcases opened with _ | ⟨backend, c⟩
        · rfl
        · simp only
          generalize env.quinn.readStream c.inner streamId = read
          obtain ⟨inner, read⟩ := read
          rcases read with error | _
          · cases error <;> rfl
          · have hloop : readLoop env streamId out.length fuel inner [] = _ :=
              readLoop_eq_copyLoop fuel inner [] out
            simp only
            rw [hloop, Option.map_map, Option.map_map]
            rfl

/-! ## What quinn returns -/

/-- Why the loop ends. -/
inductive Ending where
  /-- The buffer is full. -/
  | full
  /-- The stream has ended. -/
  | finished
  | blocked
  | reset (code : Nat)
  deriving DecidableEq

/-- The result of `stream_recv` after this many bytes. -/
def Ending.result : Ending → Nat → Except Error (Nat × Bool)
  | .full, n => .ok (n, false)
  | .finished, n => .ok (n, true)
  | .blocked, n => .ok (n, false)
  | .reset code, _ => .error (.streamReset code)

/-- `Chunks::next` returns these chunks and then this ending, for a buffer of this length and from this
offset on. A chunk is at most as long as was asked for. -/
inductive Results (lib : Library Conn) (streamId : StreamId) (outLen : Nat) :
    Conn → Nat → List (List UInt8) → Ending → Conn → Prop
  | full {c : Conn} {offset : Nat} : outLen ≤ offset → Results lib streamId outLen c offset [] .full c
  | chunk {c c' c'' : Conn} {offset : Nat} {bytes : List UInt8} {chunks : List (List UInt8)}
      {ending : Ending} : offset < outLen →
      lib.nextChunk c streamId (outLen - offset) = (c', .ok (some bytes)) →
      bytes.length ≤ outLen - offset →
      Results lib streamId outLen c' (offset + bytes.length) chunks ending c'' →
      Results lib streamId outLen c offset (bytes :: chunks) ending c''
  | finished {c c' : Conn} {offset : Nat} : offset < outLen →
      lib.nextChunk c streamId (outLen - offset) = (c', .ok none) →
      Results lib streamId outLen c offset [] .finished c'
  | blocked {c c' : Conn} {offset : Nat} : offset < outLen →
      lib.nextChunk c streamId (outLen - offset) = (c', .error .blocked) →
      Results lib streamId outLen c offset [] .blocked c'
  | reset {c c' : Conn} {offset code : Nat} : offset < outLen →
      lib.nextChunk c streamId (outLen - offset) = (c', .error (.reset code)) →
      Results lib streamId outLen c offset [] (.reset code) c'

variable {lib : Library Conn} {outLen offset : Nat} {c c' : Conn} {chunks : List (List UInt8)}
  {ending : Ending} {out : List UInt8}

/-- The chunks fit into the buffer. -/
theorem Results.length_le (h : Results lib streamId outLen c offset chunks ending c')
    (hoffset : offset ≤ outLen) : offset + chunks.flatten.length ≤ outLen := by
  induction h with
  | chunk _ _ hlength _ ih =>
    rw [List.flatten_cons, List.length_append, ← Nat.add_assoc]
    exact ih (by omega)
  | _ => exact hoffset

/-- The end of the loop. -/
theorem copyLoop_end (h : Results env.quinn streamId out.length c offset [] ending c')
    (fuel : Nat) :
    copyLoop env streamId (fuel + 1) c out offset = some (c', out, ending.result offset) := by
  unfold copyLoop
  cases h with
  | full hfull =>
    rw [if_pos hfull]
    rfl
  | finished hlt hnext =>
    rw [if_neg (Nat.not_le.mpr hlt), hnext]
    rfl
  | blocked hlt hnext =>
    rw [if_neg (Nat.not_le.mpr hlt), hnext]
    rfl
  | reset hlt hnext =>
    rw [if_neg (Nat.not_le.mpr hlt), hnext]
    rfl

/-- **The second chunk**: once something was read, every further chunk is a panic. -/
theorem copyLoop_later {bytes : List UInt8}
    (h : Results env.quinn streamId out.length c offset (bytes :: chunks) ending c')
    (hoffset : 0 < offset) (fuel : Nat) : copyLoop env streamId fuel c out offset = none := by
  cases fuel with
  | zero => rfl
  | succ fuel =>
    cases h with
    | chunk hlt hnext _ _ =>
      rw [copyLoop, if_neg (Nat.not_le.mpr hlt), hnext]
      simp only
      rw [copyFromSlice_length, if_neg fun h => Nat.ne_of_gt hoffset h.1]

theorem length_copied {bytes : List UInt8} (h : bytes.length ≤ out.length) :
    (bytes ++ out.drop bytes.length).length = out.length := by
  rw [List.length_append, List.length_drop, Nat.add_sub_cancel' h]

/-- The first iteration copies its chunk. -/
theorem copyLoop_first {bytes : List UInt8}
    (h : Results env.quinn streamId out.length c 0 (bytes :: chunks) ending c') :
    ∃ c₁, Results env.quinn streamId (bytes ++ out.drop bytes.length).length c₁ bytes.length chunks
        ending c' ∧
      ∀ fuel, copyLoop env streamId (fuel + 1) c out 0 =
        copyLoop env streamId fuel c₁ (bytes ++ out.drop bytes.length) bytes.length := by
  cases h with
  | @chunk _ c₁ _ _ _ _ _ hlt hnext hlength hrest =>
    have hfits : bytes.length ≤ out.length := hlength
    rw [Nat.zero_add] at hrest
    refine ⟨c₁, by rwa [length_copied hfits], fun fuel => ?_⟩
    rw [copyLoop, if_neg (Nat.not_le.mpr hlt), hnext]
    simp only
    rw [copyFromSlice_length, if_pos ⟨rfl, hfits⟩, Nat.zero_add]

/-- Chunks of which only the last one has bytes. -/
theorem copyLoop_fits (h : Results env.quinn streamId out.length c 0 chunks ending c')
    (hchunks : chunks.dropLast.flatten = []) :
    copyLoop env streamId (chunks.length + 1) c out 0 =
      some (c', chunks.flatten ++ out.drop chunks.flatten.length,
        ending.result chunks.flatten.length) := by
  induction chunks generalizing c with
  | nil => exact copyLoop_end h 0
  | cons bytes chunks ih =>
    obtain ⟨c₁, hrest, hfirst⟩ := copyLoop_first h
    rw [List.length_cons, hfirst]
    cases chunks with
    | nil =>
      rw [List.flatten_singleton]
      exact copyLoop_end hrest 0
    | cons next chunks =>
      -- an empty chunk changes nothing
      rw [List.dropLast_cons_cons, List.flatten_cons, List.append_eq_nil_iff] at hchunks
      obtain ⟨rfl, hchunks⟩ := hchunks
      exact ih hrest hchunks

/-- Chunks of which an earlier one has bytes. -/
theorem copyLoop_panics (h : Results env.quinn streamId out.length c 0 chunks ending c')
    (hchunks : chunks.dropLast.flatten ≠ []) (fuel : Nat) :
    copyLoop env streamId fuel c out 0 = none := by
  induction chunks generalizing c fuel with
  | nil => exact absurd rfl hchunks
  | cons bytes chunks ih =>
    obtain ⟨c₁, hrest, hfirst⟩ := copyLoop_first h
    cases fuel with
    | zero => rfl
    | succ fuel =>
      rw [hfirst]
      cases chunks with
      | nil => exact absurd rfl hchunks
      | cons next chunks =>
        cases bytes with
        | nil =>
          rw [List.dropLast_cons_cons, List.flatten_cons, List.nil_append] at hchunks
          exact ih hrest hchunks fuel
        | cons byte bytes => exact copyLoop_later hrest (Nat.succ_pos _) fuel

/-! ## One call -/

/-- A call of `stream_recv` on an open connection, for a stream that can be read from. -/
structure Reading (env : Env Conn End Cfg Incoming Signal Report) where
  backend : EndpointBackend Conn End Cfg
  id : QuinnConnectionId
  streamId : StreamId
  out : List UInt8
  isOpen : backend.isOpen = true
  legal : (streamId.isClient && streamId.isUni) = false
  out_ne_nil : out ≠ []
  marked : QuinnBackend Conn
  connection : Connection Conn
  getOpen : backend.getOpen env.quinn id = some (marked, connection)
  inner : Conn
  readable : env.quinn.readStream connection.inner streamId = (inner, .ok ())
  /-- What quinn returns, until the loop ends. -/
  chunks : List (List UInt8)
  ending : Ending
  inner' : Conn
  results : Results env.quinn streamId out.length inner 0 chunks ending inner'

namespace Reading

/-- The call does not panic, and unless the stream is reset it fills the front of the buffer with the
chunks in order, leaves the rest of it alone, and reports the end of the stream. -/
def Delivers (r : Reading env) : Prop :=
  ∃ fuel b out result,
    r.backend.streamRecvInto env r.id r.streamId r.out fuel = some (b, out, result) ∧
    ((∀ code, r.ending ≠ .reset code) → ∃ n fin, result = .ok (n, fin) ∧ n ≤ r.out.length ∧
      out.take n = r.chunks.flatten ∧ out.drop n = r.out.drop n ∧
      (fin = true ↔ r.ending = .finished))

theorem streamRecvInto_eq (r : Reading env) (fuel : Nat) :
    r.backend.streamRecvInto env r.id r.streamId r.out fuel =
      (copyLoop env r.streamId fuel r.inner r.out 0).map fun (inner, out, result) =>
        ({ r.backend with
            toQuinnBackend := r.marked.put r.id.key { r.connection with inner } }, out, result) := by
  rw [streamRecvInto, if_neg (by rw [r.isOpen]; decide), if_neg (by rw [r.legal]; decide),
    if_neg r.out_ne_nil, r.getOpen]
  simp only
  rw [r.readable]

/-- **The bytes arrive in order exactly if no chunk with bytes is followed by another chunk.** -/
theorem delivers_iff (r : Reading env) : r.Delivers ↔ r.chunks.dropLast.flatten = [] := by
  constructor
  · rintro ⟨fuel, b, out, result, hrun, -⟩
    by_contra hchunks
    rw [streamRecvInto_eq, copyLoop_panics r.results hchunks fuel] at hrun
    cases hrun
  · intro hchunks
    have hrun := r.streamRecvInto_eq (r.chunks.length + 1)
    rw [copyLoop_fits r.results hchunks] at hrun
    refine ⟨_, _, _, _, hrun, fun hreset => ?_⟩
    have hlength := r.results.length_le (Nat.zero_le _)
    rw [Nat.zero_add] at hlength
    have hfilled : (r.chunks.flatten ++ r.out.drop r.chunks.flatten.length).take
          r.chunks.flatten.length = r.chunks.flatten ∧
        (r.chunks.flatten ++ r.out.drop r.chunks.flatten.length).drop r.chunks.flatten.length =
          r.out.drop r.chunks.flatten.length := ⟨List.take_left, List.drop_left⟩
    cases hending : r.ending with
    | full => exact ⟨_, false, rfl, hlength, hfilled.1, hfilled.2, by simp⟩
    | finished => exact ⟨_, true, rfl, hlength, hfilled.1, hfilled.2, by simp⟩
    | blocked => exact ⟨_, false, rfl, hlength, hfilled.1, hfilled.2, by simp⟩
    | reset code => exact absurd hending (hreset code)

end Reading

end EndpointBackend

/-! ## Two chunks -/

/-- Connections with one stream, and the chunks that have arrived on it. -/
def chunkLibrary : Library (List (List UInt8)) where
  isDrained _ := false
  isClosed _ := false
  isServer _ := false
  currentMtu _ := 1200
  close c _ _ _ := c
  handleTimeout c _ := c
  pollTimeout c := (c, none)
  pollTransmit c _ _ := (c, none)
  poll c := (c, none)
  localAddressChanged c := c
  pathChanged c _ := c
  openStream c _ := (c, none)
  acceptStream c _ := (c, none)
  readStream c _ := (c, .ok ())
  nextChunk c _ maxLength :=
    match c with
    | [] => ([], .error .blocked)
    | bytes :: rest =>
      if bytes.length ≤ maxLength then (rest, .ok (some bytes))
      else (bytes.drop maxLength :: rest, .ok (some (bytes.take maxLength)))
  writeChunk c _ _ := (c, .error .closedStream)
  finish c _ := (c, .error .closedStream)
  stop c _ _ := c
  reset c _ _ := c
  setPriority c _ _ := c
  recvDatagram c := (c, none)
  sendDatagram c _ := (c, .error .unsupportedByPeer)
  datagramMaxSize _ := none
  display _ := "error"

/-- An endpoint whose connections have received two chunks. -/
def chunkEndpoint : EndpointLibrary (List (List UInt8)) Unit Unit Unit Unit Unit where
  connect _ _ _ _ _ := ((), .ok (0, [[1], [2]]))
  handle _ _ _ _ _ _ := ((), none, [])
  handleEvent _ _ _ := ((), none)
  ignore _ _ := ()
  retry _ incoming := ((), .error incoming)
  accept _ _ _ _ := ((), .error none)
  remoteAddressValidated _ := true
  deliver c _ := c
  pollEndpointEvents c := (c, [])

def chunkEnv : Env (List (List UInt8)) Unit Unit Unit Unit Unit where
  quinn := chunkLibrary
  endpoint := chunkEndpoint

/-- **The second chunk is a panic**, in a buffer that has room for both. -/
theorem second_chunk_panics :
    ∃ (s : Running (List (List UInt8)) Unit Unit) (r : EndpointBackend.Reading chunkEnv),
      Reachable Running.Init anyStep (Running.exec chunkEnv) s ∧ r.backend = s.backend ∧
      r.out = [0, 0, 0, 0] ∧ r.chunks = [[1], [2]] ∧ r.ending = .blocked ∧
      (∀ fuel, r.backend.streamRecv chunkEnv r.id r.streamId 4 fuel = none) ∧ ¬ r.Delivers := by
  have hrun : ∃ s : Running (List (List UInt8)) Unit Unit,
      Reachable Running.Init anyStep (Running.exec chunkEnv) s ∧ decide (s.backend.isOpen = true ∧
        (s.backend.getOpen chunkEnv.quinn ⟨0, 0⟩).any (fun (_, c) =>
          decide (c.inner = [[1], [2]]))) = true :=
    exists_reachable (some ⟨.new { client := some (), server := none } () [] [] .localhost .zero, []⟩)
      (fun s hs => by
        cases hs
        exact ⟨rfl, _, _, _, _, _, _, rfl⟩)
      [.connect "" ⟨.localhost, 443⟩]
      (by decide +kernel)
  obtain ⟨s, hs, hp⟩ := hrun
  obtain ⟨hopen, hget⟩ := of_decide_eq_true hp
  obtain ⟨⟨marked, c⟩, hget, hinner⟩ := (Option.any_eq_true ..).mp hget
  have hinner : c.inner = [[1], [2]] := of_decide_eq_true hinner
  have hresults : EndpointBackend.Results chunkEnv.quinn (.initial true true) 4 [[1], [2]] 0
      [[1], [2]] .blocked [] :=
    .chunk (by decide) rfl (by decide) (.chunk (by decide) rfl (by decide) (.blocked (by decide) rfl))
  let r : EndpointBackend.Reading chunkEnv := {
    backend := s.backend
    id := ⟨0, 0⟩
    streamId := .initial true true
    out := [0, 0, 0, 0]
    isOpen := hopen
    legal := rfl
    out_ne_nil := by decide
    marked
    connection := c
    getOpen := hget
    inner := [[1], [2]]
    readable := by rw [hinner]; rfl
    chunks := [[1], [2]]
    ending := .blocked
    inner' := []
    results := hresults }
  have hchunks : ([[1], [2]] : List (List UInt8)).dropLast.flatten ≠ [] := by decide
  have hpanic (fuel : Nat) : r.backend.streamRecv chunkEnv r.id r.streamId 4 fuel = none := by
    have hrecv : r.backend.streamRecv chunkEnv r.id r.streamId 4 fuel = _ :=
      EndpointBackend.streamRecv_eq r.backend r.id r.streamId r.out fuel
    rw [r.streamRecvInto_eq, EndpointBackend.copyLoop_panics r.results hchunks] at hrecv
    exact hrecv
  exact ⟨s, r, hs, rfl, rfl, rfl, rfl, hpanic, fun hdelivers => hchunks (r.delivers_iff.mp hdelivers)⟩

end Aquic.Backend.Quinn
