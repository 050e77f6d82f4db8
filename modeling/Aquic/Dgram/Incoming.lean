import Aquic.Lib.Trace
import Aquic.Stream.Incoming
import Aquic.Sync.Dgram

/-!
# The loop of incoming datagrams

`dgram/incoming.rs`: `io_loop` lends the decoder to the backend, which feeds it the datagrams that have
arrived, decodes an item, and passes it on to the application. The loop of a stream asks for more data
when `decode` has returned `None`; here `decode` is called once after each `recv`, whatever it returns,
and `decoder_drained` is written but not read.

The decoder is a parameter. What the backend and the channel of the application answer is given as a list,
with one entry for each iteration of the loop; a call of `recv` that is never answered leaves the loop
waiting.
-/

namespace Aquic.Sync.Dgram

/-- The text of an error. -/
def Error.display : Error → String
  | .ended => "normal end"
  | .connection => "connection is closed"
  | .hangUp e => "hang-up (" ++ e ++ ")"

end Aquic.Sync.Dgram

namespace Aquic.Dgram

open Aquic.Net (Build)
open Aquic.Stream (Exit SendError)
open Aquic.Sync.Dgram (Error)
open Trace

/-- The decoder of an application, and what the texts and the build depend on. -/
structure Spec (Dec α : Type) where
  /-- `Decoder::recv`. -/
  recv : Dec → List UInt8 → Dec
  /-- `Decoder::decode`. -/
  decode : Dec → Dec × Option α
  /-- `type_name::<Self>()`. -/
  selfName : String
  /-- `type_name::<S::DgramItem>()`. -/
  itemName : String
  build : Build

/-- What the other parties answer in one iteration. -/
structure Answers where
  /-- `InDgramBackend::recv`: the datagrams that it feeds the decoder; `none` is no answer at all. -/
  recv : Option (Except SendError (Except Backend.Error (List (List UInt8))))
  /-- `dgram::Sender::try_send`. -/
  trySend : Except Error Bool

/-- The calls of the loop: the decoder that is lent, and what `decode` has returned. -/
inductive Call (Dec α : Type) where
  | recv (decoder : Dec)
  | decoded (item : Option α)
  | sent (item : α)
  deriving DecidableEq, Repr

structure Incoming (Dec α : Type) where
  decoder : Option Dec
  /-- The decoder is empty and expects new datagrams. -/
  decoderDrained : Bool
  /-- History. -/
  calls : List (Call Dec α)
  deriving DecidableEq, Repr

namespace Incoming

variable {Dec α : Type} (spec : Spec Dec α)

/-- `Incoming::new`. -/
def new (decoder : Dec) : Incoming Dec α where
  decoder := some decoder
  decoderDrained := false
  calls := []

def call (s : Incoming Dec α) (call : Call Dec α) : Incoming Dec α :=
  { s with calls := s.calls ++ [call] }

/-- What an error of the backend means for the datagrams. -/
def backendError : Backend.Error → Error
  | .closed => .connection
  | .unknownConnection => .connection
  | other => .hangUp ("'" ++ spec.selfName ++ "' QUIC backend RPC channel responded with '" ++
      other.display ++ "'")

/-- The decoder moves into the call of the backend. -/
def lend (s : Incoming Dec α) (decoder : Dec) : Incoming Dec α :=
  { s with decoder := none, decoderDrained := false }.call (.recv decoder)

/-- The backend has answered, or never will. -/
def received (s : Incoming Dec α) (decoder : Dec) :
    Option (Except SendError (Except Backend.Error (List (List UInt8)))) →
      Incoming Dec α × Except (Exit Error) Unit
  | none => (s, .error .waiting)
  | some (.error e) =>
    (s, .error (.returned (.hangUp ("'" ++ spec.selfName ++
      "' QUIC backend RPC channel is unavailable: " ++ e.display))))
  | some (.ok (.ok datagrams)) =>
    ({ s with decoder := some (datagrams.foldl spec.recv decoder) }, .ok ())
  | some (.ok (.error e)) => (s, .error (.returned (backendError spec e)))

/-- `recv_dgrams`. -/
def recvDgrams (s : Incoming Dec α)
    (answer : Option (Except SendError (Except Backend.Error (List (List UInt8))))) :
    Incoming Dec α × Except (Exit Error) Unit :=
  match s.decoder with
  | none => (s, .ok ())
  | some decoder => (s.lend decoder).received spec decoder answer

/-- `decode_dgram`. -/
def decodeDgram (s : Incoming Dec α) : Incoming Dec α × Option α :=
  match s.decoder with
  | none => (s, none)
  | some decoder =>
    let (decoder, item) := spec.decode decoder
    ({ s with decoder := some decoder }.call (.decoded item), item)

/-- `dpanic_or_hangup`. -/
def dpanicOrHangup (message : String) : Exit Error :=
  match spec.build with
  | .debug => .panicked message
  | .release => .returned (.hangUp message)

/-- The beginning of the texts for an item that is not accepted. -/
def channelText : String :=
  "'" ++ spec.selfName ++ "' decoded items '" ++ spec.itemName ++ "' channel"

/-- What the answer of the application's channel means; a full channel drops the item. -/
def accepted : Except Error Bool → Except (Exit Error) Unit
  | .ok _ => .ok ()
  | .error .ended => .error (.returned .ended)
  | .error (.hangUp e) =>
    .error (.returned (.hangUp (channelText spec ++ " is unavailable: " ++ e)))
  | .error other =>
    .error (dpanicOrHangup spec
      (channelText spec ++ " returned an unexpected error: " ++ other.display))

/-- `send_item`. -/
def sendItem (s : Incoming Dec α) (item : α) (answer : Except Error Bool) :
    Incoming Dec α × Except (Exit Error) Unit :=
  (s.call (.sent item), accepted spec answer)

/-- One iteration of `io_loop`. -/
def iteration (s : Incoming Dec α) (answers : Answers) :
    Incoming Dec α × Except (Exit Error) Unit :=
  match s.recvDgrams spec answers.recv with
  | (s, .error e) => (s, .error e)
  | (s, .ok _) =>
    match s.decodeDgram spec with
    | (s, none) => (s, .ok ())
    | (s, some item) => s.sendItem spec item answers.trySend

/-- `io_loop`, as long as there are answers; `none` if it goes on. -/
def ioLoop : List Answers → Incoming Dec α → Incoming Dec α × Option (Exit Error)
  | [], s => (s, none)
  | answers :: rest, s =>
    match s.iteration spec answers with
    | (s, .error e) => (s, some e)
    | (s, .ok _) => ioLoop rest s

end Incoming

/-! ## When the backend is asked -/

namespace Call

variable {Dec α : Type}

def isRecv : Call Dec α → Bool
  | recv _ => true
  | _ => false

/-- `decode` has returned `None`. -/
def isNone : Call Dec α → Bool
  | decoded none => true
  | _ => false

end Call

section

variable {Dec α : Type}

/-- `R` holds whenever the backend is called, of the calls before and of the decoder it is lent. -/
def Asks (R : List (Call Dec α) → Dec → Prop) (calls : List (Call Dec α)) : Prop :=
  Throughout (fun before call => ∀ decoder, call = .recv decoder → R before decoder) calls

/-- When the backend is called again, `decode` has returned `None` since it was called last. -/
def Drains : List (Call Dec α) → Prop :=
  Asks fun before _ => before.any Call.isRecv = true → since Call.isNone Call.isRecv before = true

/-- When the backend is called again, no item waits inside the decoder. -/
def NothingWaits (spec : Spec Dec α) : List (Call Dec α) → Prop :=
  Asks fun before decoder => before.any Call.isRecv = true → (spec.decode decoder).2 = none

/-- The channel does not refuse the item, if there is one. -/
def Answers.goesOn (answers : Answers) (item : Option α) : Bool :=
  item.isNone || answers.trySend.isOk

/-- `P` holds of what one call of `decode` makes of each batch that the backend delivers, as long as the
items are not refused; nothing is asked of a batch that is the last one. -/
def EveryBatch (spec : Spec Dec α) (P : Dec × Option α → Prop) : Dec → List Answers → Prop
  | _, [] => True
  | decoder, answers :: rest => ∀ datagrams, answers.recv = some (.ok (.ok datagrams)) →
      let result := spec.decode (datagrams.foldl spec.recv decoder)
      answers.goesOn result.2 = true →
        (rest ≠ [] → P result) ∧ EveryBatch spec P result.1 rest

variable {R : List (Call Dec α) → Dec → Prop} {calls : List (Call Dec α)}

theorem Asks.nil : Asks R [] := throughout_nil _

theorem asks_recv {decoder : Dec} :
    Asks R (calls ++ [.recv decoder]) ↔ Asks R calls ∧ R calls decoder := by
  refine throughout_concat.trans (and_congr_right fun _ => ?_)
  constructor
  · intro h
    exact h decoder rfl
  · rintro h _ heq
    cases heq
    exact h

/-- Only the calls of the backend count. -/
theorem asks_other {call : Call Dec α} (hcall : call.isRecv = false) :
    Asks R (calls ++ [call]) ↔ Asks R calls := by
  refine throughout_concat.trans (and_iff_left ?_)
  rintro decoder rfl
  cases hcall

end

namespace Incoming

variable {Dec α : Type} {spec : Spec Dec α} {s : Incoming Dec α} {decoder : Dec}

/-- What an iteration adds to the history if the backend delivers. -/
def round (decoder : Dec) (item : Option α) : List (Call Dec α) :=
  .recv decoder :: .decoded item :: item.toList.map .sent

theorem append_round_none (calls : List (Call Dec α)) (decoder : Dec) :
    calls ++ round decoder none = calls ++ [.recv decoder] ++ [.decoded none] := by
  simp [round]

theorem append_round_some (calls : List (Call Dec α)) (decoder : Dec) (item : α) :
    calls ++ round decoder (some item) =
      calls ++ [.recv decoder] ++ [.decoded (some item)] ++ [.sent item] := by
  simp [round]

theorem asks_round {R : List (Call Dec α) → Dec → Prop} {calls : List (Call Dec α)}
    (item : Option α) : Asks R (calls ++ round decoder item) ↔ Asks R calls ∧ R calls decoder := by
  cases item with
  | none => rw [append_round_none, asks_other rfl, asks_recv]
  | some item => rw [append_round_some, asks_other rfl, asks_other rfl, asks_recv]

theorem decodeDgram_of_some (hdecoder : s.decoder = some decoder) :
    s.decodeDgram spec = ({ s with decoder := some (spec.decode decoder).1 }.call
      (.decoded (spec.decode decoder).2), (spec.decode decoder).2) := by
  unfold decodeDgram
  rw [hdecoder]

variable (spec) in
/-- The backend does not deliver: the loop is over. -/
theorem iteration_of_not_delivered (hdecoder : s.decoder = some decoder) {answers : Answers}
    (hrecv : ∀ datagrams, answers.recv ≠ some (.ok (.ok datagrams))) :
    ∃ e, s.iteration spec answers = (s.lend decoder, .error e) := by
  unfold iteration recvDgrams
  rw [hdecoder]
  cases hanswer : answers.recv with
  | none => exact ⟨_, rfl⟩
  | some answer =>
    cases answer with
    | error e => exact ⟨_, rfl⟩
    | ok result =>
      cases result with
      | error e => exact ⟨_, rfl⟩
      | ok datagrams => exact absurd hanswer (hrecv datagrams)

variable (spec) in
/-- The backend delivers: one call of `decode`, and the loop goes on unless the item is refused. -/
theorem iteration_of_delivered (hdecoder : s.decoder = some decoder) {answers : Answers}
    {datagrams : List (List UInt8)} (hrecv : answers.recv = some (.ok (.ok datagrams))) :
    ∃ s' result, s.iteration spec answers = (s', result) ∧
      s'.decoder = some (spec.decode (datagrams.foldl spec.recv decoder)).1 ∧
      s'.calls = s.calls ++ round decoder (spec.decode (datagrams.foldl spec.recv decoder)).2 ∧
      (result = .ok () ∧
          answers.goesOn (spec.decode (datagrams.foldl spec.recv decoder)).2 = true ∨
        ∃ e, result = .error e ∧
          answers.goesOn (spec.decode (datagrams.foldl spec.recv decoder)).2 = false) := by
  let fed : Incoming Dec α :=
    { s.lend decoder with decoder := some (datagrams.foldl spec.recv decoder) }
  have hreceived : s.recvDgrams spec answers.recv = (fed, .ok ()) := by
    unfold recvDgrams
    rw [hdecoder, hrecv]
    rfl
  have hfed : fed.decoder = some (datagrams.foldl spec.recv decoder) := rfl
  unfold iteration
  rw [hreceived]
  simp only [decodeDgram_of_some hfed]
  generalize spec.decode (datagrams.foldl spec.recv decoder) = decoded
  obtain ⟨decoder', item⟩ := decoded
  cases item with
  | none =>
    refine ⟨_, _, rfl, rfl, ?_, .inl ⟨rfl, rfl⟩⟩
    simp [fed, call, lend, round]
  | some item =>
    refine ⟨_, _, rfl, rfl, ?_, ?_⟩
    · simp [fed, call, lend, round]
    · cases hsend : answers.trySend with
      | ok taken => exact .inl ⟨rfl, by simp [Answers.goesOn, hsend, Except.isOk, Except.toBool]⟩
      | error e =>
        have hrefused : answers.goesOn (some item) = false := by
          simp [Answers.goesOn, hsend, Except.isOk, Except.toBool]
        cases e <;> exact .inr ⟨_, rfl, hrefused⟩

variable (spec) in
/-- **What holds when the backend is called** in a run of the loop: `R` of the calls before a call is `P`
of what `decode` has made of the batch before it. -/
theorem asks_ioLoop {R : List (Call Dec α) → Dec → Prop} {P : Dec × Option α → Prop}
    (hround : ∀ calls decoder result, R (calls ++ round decoder result.2) result.1 ↔ P result)
    (answers : List Answers) (hdecoder : s.decoder = some decoder) :
    Asks R (s.ioLoop spec answers).1.calls ↔
      Asks R s.calls ∧ (answers ≠ [] → R s.calls decoder) ∧
        EveryBatch spec P decoder answers := by
  induction answers generalizing s decoder with
  | nil => simp [ioLoop, EveryBatch]
  | cons answers rest ih =>
    by_cases hdelivered : ∃ datagrams, answers.recv = some (.ok (.ok datagrams))
    · obtain ⟨datagrams, hrecv⟩ := hdelivered
      obtain ⟨s', result, hstep, hdecoder', hcalls, hresult⟩ :=
        iteration_of_delivered spec hdecoder hrecv
      have hbatch : EveryBatch spec P decoder (answers :: rest) ↔
          (answers.goesOn (spec.decode (datagrams.foldl spec.recv decoder)).2 = true →
            (rest ≠ [] → P (spec.decode (datagrams.foldl spec.recv decoder))) ∧
              EveryBatch spec P (spec.decode (datagrams.foldl spec.recv decoder)).1 rest) := by
        constructor
        · intro h
          exact h datagrams hrecv
        · intro h datagrams' hrecv'
          rw [hrecv] at hrecv'
          cases hrecv'
          exact h
      unfold ioLoop
      rw [hstep, hbatch]
      rcases hresult with ⟨rfl, hgoes⟩ | ⟨e, rfl, hrefused⟩
      · -- the next call of the backend comes right after this iteration
        show Asks R (s'.ioLoop spec rest).1.calls ↔ _
        rw [ih hdecoder', hcalls, asks_round, hround]
        simp [hgoes, and_assoc]
      · show Asks R s'.calls ↔ _
        rw [hcalls, asks_round]
        simp [hrefused]
    · have hrecv : ∀ datagrams, answers.recv ≠ some (.ok (.ok datagrams)) :=
        fun datagrams heq => hdelivered ⟨datagrams, heq⟩
      obtain ⟨e, hstep⟩ := iteration_of_not_delivered spec hdecoder hrecv
      have hbatch : EveryBatch spec P decoder (answers :: rest) :=
        fun datagrams heq => absurd heq (hrecv datagrams)
      unfold ioLoop
      rw [hstep]
      show Asks R (s.calls ++ [.recv decoder]) ↔ _
      rw [asks_recv]
      simp [hbatch]

/-- After an iteration `decode` has returned `None` if that is what it has returned last. -/
theorem since_round (calls : List (Call Dec α)) (decoder : Dec) (item : Option α) :
    since Call.isNone Call.isRecv (calls ++ round decoder item) = item.isNone := by
  cases item with
  | none =>
    rw [append_round_none, since_concat]
    rfl
  | some item =>
    rw [append_round_some, since_concat, since_concat, since_concat]
    simp [Call.isNone, Call.isRecv]

/-- **The decoder is drained** before the backend is called again exactly if no batch that is followed by
another call yields an item; and no item waits in it exactly if each such batch yields one item at most.
This is so for every decoder and all answers. -/
theorem drains_iff (spec : Spec Dec α) (decoder : Dec) (answers : List Answers) :
    (Drains ((new decoder).ioLoop spec answers).1.calls ↔
      EveryBatch spec (fun result => result.2 = none) decoder answers) ∧
    (NothingWaits spec ((new decoder).ioLoop spec answers).1.calls ↔
      EveryBatch spec (fun result => (spec.decode result.1).2 = none) decoder answers) := by
  have hnew : (new decoder : Incoming Dec α).decoder = some decoder := rfl
  have hrecv : ∀ (calls : List (Call Dec α)) (decoder : Dec) (item : Option α),
      (calls ++ round decoder item).any Call.isRecv = true := by
    intro calls decoder item
    simp [round, Call.isRecv]
  constructor
  · have hasks := asks_ioLoop spec (P := fun result => result.2 = none)
      (R := fun before _ => before.any Call.isRecv = true →
        since Call.isNone Call.isRecv before = true) ?_ answers hnew
    · refine hasks.trans ?_
      simp [new, Asks.nil]
    · intro calls decoder result
      simp only [since_round, hrecv, Option.isNone_iff_eq_none, true_implies]
  · have hasks := asks_ioLoop spec (P := fun result => (spec.decode result.1).2 = none)
      (R := fun before decoder => before.any Call.isRecv = true → (spec.decode decoder).2 = none)
      ?_ answers hnew
    · refine hasks.trans ?_
      simp [new, Asks.nil]
    · intro calls decoder result
      simp only [hrecv, true_implies]

/-- A decoder whose items are the bytes of the datagrams. -/
def bytewise : Spec (List UInt8) UInt8 where
  recv queue datagram := queue ++ datagram
  decode queue := (queue.tail, queue.head?)
  selfName := "Incoming"
  itemName := "u8"
  build := .debug

/-- **A backlog.** The first datagram has two items; the backend is asked for more while the second one
waits. -/
theorem item_waits :
    ¬Drains ((new []).ioLoop bytewise
      [⟨some (.ok (.ok [[1, 2]])), .ok true⟩, ⟨none, .ok true⟩]).1.calls ∧
    ((new []).ioLoop bytewise
      [⟨some (.ok (.ok [[1, 2]])), .ok true⟩, ⟨none, .ok true⟩]).1.calls =
        [.recv [], .decoded (some 1), .sent 1, .recv [2]] := by
  have hcalls : ((new []).ioLoop bytewise
      [⟨some (.ok (.ok [[1, 2]])), .ok true⟩, ⟨none, .ok true⟩]).1.calls =
        [.recv [], .decoded (some 1), .sent 1, .recv [2]] := rfl
  refine ⟨?_, hcalls⟩
  rw [hcalls]
  intro hdrains
  have hsince := hdrains [.recv [], .decoded (some 1), .sent 1] (.recv [2]) [] rfl [2] rfl rfl
  exact absurd hsince (by decide)

end Incoming

end Aquic.Dgram
