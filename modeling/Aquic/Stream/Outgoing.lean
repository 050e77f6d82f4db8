import Aquic.Lib.Batching
import Aquic.Stream.Id
import Aquic.Stream.Incoming

/-!
# The loop of an outgoing stream

`stream/outgoing.rs`: `io_loop` receives items of the application into the encoder, as many as there are
or until the encoder wants to be flushed, and then lends the encoder to the backend, which sends what it
holds.

As for an incoming stream, the encoder, the application's channel and the backend are parameters, what
they answer may depend on everything that has happened, and the loops run on fuel. The history holds the
answers, so that an error can be told from them (`Call.failure`).
-/

/-- The data, without what it says about the end of the stream. -/
def Aquic.Sync.Stream.Payload.intoInner {α : Type} : Aquic.Sync.Stream.Payload α → Option α
  | .item value => some value
  | .last value => some value
  | .done => none

namespace Aquic.Stream.Outgoing

open Aquic.Net (Build)
open Aquic.Sync.Stream (Payload Error)

/-- The calls of the loop with their answers; `none` is no answer at all. -/
inductive Call (Enc α C D E : Type) where
  | recv (answer : Option (Except (Error C D E) (Payload α)))
  | tryRecv (answer : Except (Error C D E) (Option (Payload α)))
  | encode (payload : Payload α) (result : Except E Unit)
  | setPriority (priority : Priority)
  | send (encoder : Enc) (answer : Option (Except SendError (Except Backend.Error Enc)))

/-- The other parties. -/
structure Parties (Enc α C D E : Type) where
  /-- `Encoder::encode`. -/
  encode : Enc → Payload α → Enc × Except E Unit
  /-- `Encoder::should_flush`. -/
  shouldFlush : Enc → Bool
  /-- `stream::Receiver::recv`. -/
  recv : List (Call Enc α C D E) → Option (Except (Error C D E) (Payload α))
  tryRecv : List (Call Enc α C D E) → Except (Error C D E) (Option (Payload α))
  priorityOnce : List (Call Enc α C D E) → Option Priority
  /-- `OutStreamBackend::send`, which returns the encoder. -/
  send : List (Call Enc α C D E) → Enc → Option (Except SendError (Except Backend.Error Enc))
  /-- The conversion of `u64` into codes of the application. -/
  codeOf : Nat → C
  displayCode : C → String
  displayDecoder : D → String
  displayEncoder : E → String
  /-- `type_name::<Self>()`. -/
  selfName : String
  /-- `type_name::<S::StreamItem>()`. -/
  itemName : String
  build : Build

end Outgoing

structure Outgoing (Enc α C D E : Type) where
  encoder : Option Enc
  /-- `FIN` was received. -/
  streamFinished : Bool
  /-- History. -/
  calls : List (Outgoing.Call Enc α C D E)

namespace Outgoing

open Aquic.Sync.Stream (Payload Error)
open Batching

variable {Enc α C D E : Type} (parties : Parties Enc α C D E)

/-- `Outgoing::new`. -/
def new (encoder : Enc) : Outgoing Enc α C D E where
  encoder := some encoder
  streamFinished := false
  calls := []

def call (s : Outgoing Enc α C D E) (call : Call Enc α C D E) : Outgoing Enc α C D E :=
  { s with calls := s.calls ++ [call] }

/-- The text of an error. -/
def display : Error C D E → String
  | .finish => "finish"
  | .stop code => "stop (" ++ parties.displayCode code ++ ")"
  | .reset code => "reset (" ++ parties.displayCode code ++ ")"
  | .decoder e => "decoder error (" ++ parties.displayDecoder e ++ ")"
  | .encoder e => "encoder error (" ++ parties.displayEncoder e ++ ")"
  | .connection => "connection is closed"
  | .hangUp message => "hang-up (" ++ message ++ ")"

/-- `dpanic_or_hangup`. -/
def dpanicOrHangup (message : String) : Exit (Error C D E) :=
  match parties.build with
  | .debug => .panicked message
  | .release => .returned (.hangUp message)

/-- What an error of the application's channel means. -/
def channelError : Error C D E → Exit (Error C D E)
  | .hangUp e => .returned (.hangUp ("'" ++ parties.selfName ++ "' items '" ++ parties.itemName ++
      "' channel is unavailable: " ++ e))
  | .reset code => .returned (.reset code)
  | e => dpanicOrHangup parties ("'" ++ parties.selfName ++ "' items '" ++ parties.itemName ++
      "' channel returned an unexpected error: " ++ display parties e)

/-- What an error of the backend means for the stream. -/
def backendError : Backend.Error → Error C D E
  | .streamStop err => .stop (parties.codeOf err)
  | .closed => .connection
  | .unknownConnection => .connection
  | other => .hangUp ("'" ++ parties.selfName ++
      "' QUIC backend responded with an unexpected error: " ++ other.display)

/-- A payload was received: it is encoded. -/
def received (s : Outgoing Enc α C D E) (encoder : Enc) (payload : Payload α) :
    Outgoing Enc α C D E × Except (Exit (Error C D E)) Bool :=
  let streamFinished := payload.isFin || s.streamFinished
  match parties.encode encoder payload with
  | (encoder, .error e) =>
    ({ s with encoder := some encoder, streamFinished }.call (.encode payload (.error e)),
      .error (.returned (.encoder e)))
  | (encoder, .ok _) =>
    ({ s with encoder := some encoder, streamFinished }.call (.encode payload (.ok ())), .ok true)

/-- `recv_item`. -/
def recvItem (s : Outgoing Enc α C D E) (blocking : Bool) :
    Outgoing Enc α C D E × Except (Exit (Error C D E)) Bool :=
  if s.streamFinished then
    (s, .ok false)
  else
    match s.encoder, blocking with
    | none, _ => (s, .ok false)
    | some encoder, true =>
      match parties.recv s.calls with
      | none => (s.call (.recv none), .error .waiting)
      | some (.error e) => (s.call (.recv (some (.error e))), .error (channelError parties e))
      | some (.ok payload) => (s.call (.recv (some (.ok payload)))).received parties encoder payload
    | some encoder, false =>
      match parties.tryRecv s.calls with
      | .error e => (s.call (.tryRecv (.error e)), .error (channelError parties e))
      | .ok none => (s.call (.tryRecv (.ok none)), .ok false)
      | .ok (some payload) =>
        (s.call (.tryRecv (.ok (some payload)))).received parties encoder payload

/-- The rest of a batch; `none` if it goes on. -/
def recvMore : Nat → Outgoing Enc α C D E →
    Outgoing Enc α C D E × Option (Except (Exit (Error C D E)) Unit)
  | 0, s => (s, none)
  | fuel + 1, s =>
    if s.streamFinished || s.encoder.any parties.shouldFlush then
      (s, some (.ok ()))
    else
      match s.recvItem parties false with
      | (s, .error e) => (s, some (.error e))
      | (s, .ok false) => (s, some (.ok ()))
      | (s, .ok true) => recvMore fuel s

/-- `recv_from_app`. -/
def recvFromApp (fuel : Nat) (s : Outgoing Enc α C D E) :
    Outgoing Enc α C D E × Option (Except (Exit (Error C D E)) Unit) :=
  if s.streamFinished then
    (s, some (.ok ()))
  else
    match s.recvItem parties true with
    | (s, .error e) => (s, some (.error e))
    | (s, .ok false) => (s, some (.ok ()))
    | (s, .ok true) => recvMore parties fuel s

/-- The priority is passed on if it has changed. -/
def changePriority (s : Outgoing Enc α C D E) : Outgoing Enc α C D E :=
  match parties.priorityOnce s.calls with
  | some priority => s.call (.setPriority priority)
  | none => s

/-- What the answer of the backend means. -/
def sent (s : Outgoing Enc α C D E) :
    Option (Except SendError (Except Backend.Error Enc)) →
      Outgoing Enc α C D E × Except (Exit (Error C D E)) Unit
  | none => (s, .error .waiting)
  | some (.error e) =>
    (s, .error (.returned (.hangUp ("'" ++ parties.selfName ++
      "' QUIC backend RPC channel is unavailable: " ++ e.display))))
  | some (.ok (.ok encoder)) => ({ s with encoder := some encoder }, .ok ())
  | some (.ok (.error e)) => (s, .error (.returned (backendError parties e)))

/-- `write_to_stream`. -/
def writeToStream (s : Outgoing Enc α C D E) :
    Outgoing Enc α C D E × Except (Exit (Error C D E)) Unit :=
  let s := s.changePriority parties
  match s.encoder with
  | none => (s, .ok ())
  | some encoder =>
    let answer := parties.send s.calls encoder
    ({ s with encoder := none }.call (.send encoder answer)).sent parties answer

/-- `io_loop`; `none` if it goes on. -/
def ioLoop : Nat → Outgoing Enc α C D E →
    Outgoing Enc α C D E × Option (Except (Exit (Error C D E)) Unit)
  | 0, s => (s, none)
  | fuel + 1, s =>
    match s.recvFromApp parties fuel with
    | (s, none) => (s, none)
    | (s, some (.error e)) => (s, some (.error e))
    | (s, some (.ok _)) =>
      match s.writeToStream parties with
      | (s, .error e) => (s, some (.error e))
      | (s, .ok _) => if s.streamFinished then (s, some (.ok ())) else ioLoop fuel s

/-! ## The log -/

namespace Call

def received : Call Enc α C D E → Option (Payload α)
  | .recv (some (.ok payload)) => some payload
  | .tryRecv (.ok (some payload)) => some payload
  | _ => none

/-- The payload that was encoded, or was to be. -/
def encoded : Call Enc α C D E → Option (Payload α)
  | .encode payload _ => some payload
  | _ => none

/-- How the answer ends the loop. -/
def failure : Call Enc α C D E → Option (Exit (Error C D E))
  | .recv none => some .waiting
  | .recv (some (.error e)) => some (channelError parties e)
  | .tryRecv (.error e) => some (channelError parties e)
  | .encode _ (.error e) => some (.returned (.encoder e))
  | .send _ none => some .waiting
  | .send _ (some (.error e)) =>
    some (.returned (.hangUp ("'" ++ parties.selfName ++
      "' QUIC backend RPC channel is unavailable: " ++ e.display)))
  | .send _ (some (.ok (.error e))) => some (.returned (backendError parties e))
  | _ => none

/-- What a call is to the encoder. -/
def events : Call Enc α C D E → List (Event (Payload α) Enc)
  | .recv _ => [.wait]
  | .encode payload (.ok _) => [.take payload]
  | .send encoder (some (.ok (.ok encoder'))) => [.lend encoder, .back encoder']
  | .send encoder _ => [.lend encoder]
  | _ => []

end Call

def log : Log (Call Enc α C D E) (Payload α) Enc (Exit (Error C D E)) where
  events := Call.events
  received := Call.received
  added := Call.encoded
  failure := Call.failure parties

/-- A payload is encoded, `FIN` is the end, and the backend gives the encoder back. -/
def rules : Rules (Payload α) Enc where
  add encoder payload := (parties.encode encoder payload).1
  isFin := Payload.isFin
  gives encoder encoder' := ∃ calls, parties.send calls encoder = some (.ok (.ok encoder'))

theorem log_lawful : (log parties).Lawful where
  added call hunfailed := by
    cases call with
    | encode payload result =>
      cases result with
      | error e => simp [log, Call.failure] at hunfailed
      | ok _ => rfl
    | send encoder answer => rcases answer with _ | _ | _ | _ <;> rfl
    | recv | tryRecv | setPriority => rfl
  failed call := by
    cases call with
    | encode payload result =>
      cases result with
      | error e => exact List.nil_prefix
      | ok _ => exact List.prefix_rfl
    | send encoder answer => rcases answer with _ | _ | _ | _ <;> exact List.nil_prefix
    | recv | tryRecv | setPriority => exact List.nil_prefix

/-! ## A run of the loop -/

variable {parties} {encoder₀ : Enc} {s : Outgoing Enc α C D E} {phase : Phase Enc}

/-- The loop is on its way, with the encoder in this phase. -/
abbrev Underway (parties : Parties Enc α C D E) (encoder₀ : Enc) (s : Outgoing Enc α C D E)
    (phase : Phase Enc) : Prop :=
  (log parties).Underway (rules parties) encoder₀ s.calls phase s.streamFinished

abbrev Failed (parties : Parties Enc α C D E) (encoder₀ : Enc) (s : Outgoing Enc α C D E)
    (exit : Exit (Error C D E)) : Prop :=
  (log parties).Failed (rules parties) encoder₀ s.calls exit

/-- Between two iterations. -/
def Idle (parties : Parties Enc α C D E) (encoder₀ : Enc) (s : Outgoing Enc α C D E) : Prop :=
  s.streamFinished = false ∧ ∃ encoder, s.encoder = some encoder ∧
    Underway parties encoder₀ s (.idle encoder)

/-- There is something to send. -/
def Filled (parties : Parties Enc α C D E) (encoder₀ : Enc) (s : Outgoing Enc α C D E) : Prop :=
  ∃ encoder, s.encoder = some encoder ∧ Underway parties encoder₀ s (.filled encoder)

theorem idle_new : Idle parties encoder₀ (new encoder₀) :=
  ⟨rfl, encoder₀, rfl, Log.underway_nil⟩

/-- A payload is received with the call `call`, and encoded. -/
theorem received_cases (h : Underway parties encoder₀ s phase) (hfin : s.streamFinished = false)
    {call : Call Enc α C D E} {payload : Payload α} (hreceived : call.received = some payload)
    (hencoded : call.encoded = none) (hfailure : call.failure parties = none) {encoder : Enc}
    {phase' : Phase Enc} (hphase : phase' = .idle encoder ∨ phase' = .filled encoder)
    (hprotocol : (log parties).Protocol (rules parties) encoder₀ (s.calls ++ [call]) phase' false) :
    (∃ s', (s.call call).received parties encoder payload = (s', .ok true) ∧
        Filled parties encoder₀ s') ∨
      ∃ s' e, (s.call call).received parties encoder payload = (s', .error e) ∧
        Failed parties encoder₀ s' e := by
  unfold Outgoing.received
  cases hencode : parties.encode encoder payload with
  | mk encoder' result =>
    cases result with
    | error e =>
      exact .inr ⟨_, _, rfl, h.failItem hreceived hencoded hfailure hprotocol rfl rfl rfl rfl⟩
    | ok _ =>
      refine .inl ⟨_, rfl, encoder', rfl, ?_⟩
      have hadded : (log parties).added (.encode payload (.ok ())) = some payload := rfl
      have hitem := h.item hreceived hencoded hfailure hphase hprotocol rfl hadded rfl rfl
      have hadd : (rules parties).add encoder payload = encoder' := congrArg Prod.fst hencode
      rw [hadd] at hitem
      simp only [Underway, Outgoing.call, hfin, Bool.or_false]
      exact hitem

/-- `recv_item` from the top of an iteration. -/
theorem Idle.recvItem (h : Idle parties encoder₀ s) :
    (∃ s', s.recvItem parties true = (s', .ok true) ∧ Filled parties encoder₀ s') ∨
      ∃ s' e, s.recvItem parties true = (s', .error e) ∧ Failed parties encoder₀ s' e := by
  obtain ⟨hfin, encoder, hencoder, hunderway⟩ := h
  have hwait : ∀ answer, (log parties).Protocol (rules parties) encoder₀
      (s.calls ++ [.recv answer]) (.idle encoder) false := by
    intro answer
    unfold Log.Protocol
    rw [Log.flatMap_concat]
    exact (hfin ▸ hunderway.protocol).wait
  unfold Outgoing.recvItem
  rw [hfin, hencoder]
  simp only [Bool.false_eq_true, if_false]
  cases hanswer : parties.recv s.calls with
  | none => exact .inr ⟨_, _, rfl, hunderway.fail rfl rfl (hwait none)⟩
  | some answer =>
    cases answer with
    | error e => exact .inr ⟨_, _, rfl, hunderway.fail rfl rfl (hwait _)⟩
    | ok payload => exact received_cases hunderway hfin rfl rfl rfl (.inl rfl) (hwait _)

/-- `recv_item` in the middle of a batch. -/
theorem Filled.recvItem (h : Filled parties encoder₀ s) (hfin : s.streamFinished = false) :
    (∃ s' more, s.recvItem parties false = (s', .ok more) ∧ Filled parties encoder₀ s') ∨
      ∃ s' e, s.recvItem parties false = (s', .error e) ∧ Failed parties encoder₀ s' e := by
  obtain ⟨encoder, hencoder, hunderway⟩ := h
  have hasks : ∀ answer, (log parties).Protocol (rules parties) encoder₀
      (s.calls ++ [.tryRecv answer]) (.filled encoder) false := by
    intro answer
    unfold Log.Protocol
    rw [Log.flatMap_concat]
    exact (List.append_nil _).symm ▸ hfin ▸ hunderway.protocol
  unfold Outgoing.recvItem
  rw [hfin, hencoder]
  simp only [Bool.false_eq_true, if_false]
  cases hanswer : parties.tryRecv s.calls with
  | error e => exact .inr ⟨_, _, rfl, hunderway.fail rfl rfl (hasks _)⟩
  | ok answer =>
    cases answer with
    | none => exact .inl ⟨_, false, rfl, encoder, hencoder, hunderway.aside rfl rfl rfl⟩
    | some payload =>
      rcases received_cases hunderway hfin rfl rfl rfl (.inr rfl) (hasks (.ok (some payload))) with
        ⟨s', hreceived, hfilled⟩ | hfailed
      · exact .inl ⟨s', true, hreceived, hfilled⟩
      · exact .inr hfailed

/-- A batch, as far as it has come. -/
def Batched (parties : Parties Enc α C D E) (encoder₀ : Enc)
    (outcome : Outgoing Enc α C D E × Option (Except (Exit (Error C D E)) Unit)) : Prop :=
  match outcome with
  | (s, none) => Filled parties encoder₀ s
  | (s, some (.ok _)) => Filled parties encoder₀ s
  | (s, some (.error e)) => Failed parties encoder₀ s e

theorem Filled.recvMore (fuel : Nat) (h : Filled parties encoder₀ s) :
    Batched parties encoder₀ (s.recvMore parties fuel) := by
  induction fuel generalizing s with
  | zero => exact h
  | succ fuel ih =>
    unfold Outgoing.recvMore
    split
    · exact h
    · next hgo =>
      have hfin : s.streamFinished = false := by
        cases hfin : s.streamFinished with
        | false => rfl
        | true => simp [hfin] at hgo
      rcases h.recvItem hfin with ⟨s', more, hitem, hfilled⟩ | ⟨s', e, hitem, hfailed⟩
      · rw [hitem]
        cases more with
        | false => exact hfilled
        | true => exact ih hfilled
      · rw [hitem]
        exact hfailed

theorem Idle.recvFromApp (fuel : Nat) (h : Idle parties encoder₀ s) :
    Batched parties encoder₀ (s.recvFromApp parties fuel) := by
  unfold Outgoing.recvFromApp
  rw [h.1]
  simp only [Bool.false_eq_true, if_false]
  rcases h.recvItem with ⟨s', hitem, hfilled⟩ | ⟨s', e, hitem, hfailed⟩
  · rw [hitem]
    exact hfilled.recvMore fuel
  · rw [hitem]
    exact hfailed

/-- `write_to_stream`: the encoder comes back, or the loop ends. -/
theorem Filled.writeToStream (h : Filled parties encoder₀ s) :
    (∃ s' encoder, s.writeToStream parties = (s', .ok ()) ∧ s'.encoder = some encoder ∧
        Underway parties encoder₀ s' (.idle encoder)) ∨
      ∃ s' e, s.writeToStream parties = (s', .error e) ∧ Failed parties encoder₀ s' e := by
  obtain ⟨encoder, hencoder, hunderway⟩ := h
  have hchanged : (s.changePriority parties).encoder = some encoder ∧
      Underway parties encoder₀ (s.changePriority parties) (.filled encoder) := by
    unfold changePriority
    split
    · exact ⟨hencoder, hunderway.aside rfl rfl rfl⟩
    · exact ⟨hencoder, hunderway⟩
  unfold Outgoing.writeToStream
  generalize s.changePriority parties = s₁ at hchanged
  obtain ⟨hencoder₁, hunderway₁⟩ := hchanged
  have hlent : ∀ answer, (Call.send encoder answer : Call Enc α C D E).events = [.lend encoder] →
      (log parties).Protocol (rules parties) encoder₀ (s₁.calls ++ [.send encoder answer])
        (.lent encoder) s₁.streamFinished := by
    intro answer hevents
    unfold Log.Protocol
    rw [Log.flatMap_concat]
    show Follows _ _ _ _ (_ ++ (Call.send encoder answer).events) _ _
    rw [hevents]
    exact hunderway₁.protocol.lend
  simp only [hencoder₁]
  cases hanswer : parties.send s₁.calls encoder with
  | none => exact .inr ⟨_, _, rfl, hunderway₁.fail rfl rfl (hlent none rfl)⟩
  | some answer =>
    cases answer with
    | error e => exact .inr ⟨_, _, rfl, hunderway₁.fail rfl rfl (hlent _ rfl)⟩
    | ok result =>
      cases result with
      | error e => exact .inr ⟨_, _, rfl, hunderway₁.fail rfl rfl (hlent _ rfl)⟩
      | ok encoder' =>
        refine .inl ⟨_, encoder', rfl, rfl, hunderway₁.append rfl rfl ?_⟩
        have hback := hunderway₁.protocol.lend.back ⟨s₁.calls, hanswer⟩
        unfold Log.Protocol
        rw [Log.flatMap_concat]
        rwa [List.append_assoc] at hback

/-- **A run of the loop.** -/
theorem Idle.ioLoop (fuel : Nat) (h : Idle parties encoder₀ s) :
    (log parties).Ran (rules parties) encoder₀ (s.ioLoop parties fuel).1.calls
      (s.ioLoop parties fuel).2 := by
  induction fuel generalizing s with
  | zero =>
    obtain ⟨-, encoder, -, hunderway⟩ := h
    exact ⟨_, _, hunderway⟩
  | succ fuel ih =>
    have hbatch := h.recvFromApp fuel
    unfold Outgoing.ioLoop
    rcases hrecv : s.recvFromApp parties fuel with ⟨s₁, _ | e | _⟩
    · rw [hrecv] at hbatch
      obtain ⟨encoder, -, hunderway⟩ := hbatch
      exact ⟨_, _, hunderway⟩
    · rw [hrecv] at hbatch
      exact hbatch
    · rw [hrecv] at hbatch
      have hfilled : Filled parties encoder₀ s₁ := hbatch
      simp only
      rcases hfilled.writeToStream with
        ⟨s₂, encoder, hwrite, hencoder, hunderway⟩ | ⟨s₂, e, hwrite, hfailed⟩
      · rw [hwrite]
        cases hfin : s₂.streamFinished with
        | true =>
          simp only [hfin, if_true]
          exact ⟨encoder, hfin ▸ hunderway⟩
        | false =>
          simp only [hfin, Bool.false_eq_true, if_false]
          exact ih ⟨hfin, encoder, hencoder, hunderway⟩
      · rw [hwrite]
        exact hfailed

theorem ran_new {encoder : Enc} {fuel : Nat} {s : Outgoing Enc α C D E}
    {result : Option (Except (Exit (Error C D E)) Unit)}
    (hrun : (new encoder).ioLoop parties fuel = (s, result)) :
    (log parties).Ran (rules parties) encoder s.calls result := by
  have hnew : Idle parties encoder (new encoder) := idle_new
  have hran := hnew.ioLoop fuel
  rwa [hrun] at hran

theorem flushed_of_gives {τ β : Type} {encoding : Encoding (Payload α) Enc τ β}
    (hsend : ∀ calls encoder encoder', parties.send calls encoder = some (.ok (.ok encoder')) →
      encoding.Flushed encoder encoder') (encoder encoder' : Enc)
    (h : (rules parties).gives encoder encoder') : encoding.Flushed encoder encoder' := by
  obtain ⟨calls, hanswer⟩ := h
  exact hsend calls encoder encoder' hanswer

/-- **The loop works in batches.** Every payload that is received is encoded, in order, by an encoder that
comes from the last batch; the loop waits for the application only when everything is handed over; it
never lends an encoder with nothing new in it; and it returns `Ok(())` after the batch with the final
payload is sent. Any other end is what the first failed call says, and no call follows that one. -/
theorem works_in_batches (parties : Parties Enc α C D E) (encoder : Enc) (fuel : Nat)
    {s : Outgoing Enc α C D E} {result : Option (Except (Exit (Error C D E)) Unit)}
    (hrun : (new encoder).ioLoop parties fuel = (s, result)) :
    (log parties).Forwarded s.calls ∧
    (∃ phase fin, (log parties).Protocol (rules parties) encoder s.calls phase fin ∧
      (result = some (.ok ()) → fin = true ∧ ∃ encoder', phase = .idle encoder')) ∧
    ∀ exit, result = some (.error exit) ↔ (log parties).FailsLast s.calls exit := by
  exact (ran_new hrun).goes_in_batches

/-- **What the backend is handed is the stream.** The encoder makes chunks of the payloads, and the backend
returns it when it has worked them off. Then the backend has been handed, at any time, a prefix of the
chunks of what was received; and when the loop returns `Ok(())` it is all of them, up to and including
the final payload, after which none was received. -/
theorem hands_over_the_stream (parties : Parties Enc α C D E) {τ β : Type}
    (encoding : Encoding (Payload α) Enc τ β) (hencoding : encoding.Lawful (rules parties).add)
    (hsend : ∀ calls encoder encoder', parties.send calls encoder = some (.ok (.ok encoder')) →
      encoding.Flushed encoder encoder')
    (encoder : Enc) (hempty : encoding.pending encoder = []) (fuel : Nat) {s : Outgoing Enc α C D E}
    {result : Option (Except (Exit (Error C D E)) Unit)}
    (hrun : (new encoder).ioLoop parties fuel = (s, result)) :
    encoding.handed (s.calls.flatMap Call.events) <+:
        encoding.output (encoding.memory encoder) (s.calls.filterMap Call.received) ∧
      (result = some (.ok ()) →
        encoding.handed (s.calls.flatMap Call.events) =
          encoding.output (encoding.memory encoder) (s.calls.filterMap Call.received) ∧
        ∃ payloads last, s.calls.filterMap Call.received = payloads ++ [last] ∧ last.isFin = true ∧
          ∀ payload ∈ payloads, payload.isFin = false) := by
  exact (ran_new hrun).handed_isPrefix (log_lawful parties) hencoding (flushed_of_gives hsend) hempty

/-- An encoder that keeps values until it holds two, and a channel that has them ready; the backend takes
whatever it is lent. -/
def scripted (script : List (Payload Nat)) : Parties (List Nat) Nat Unit Unit Unit where
  encode pending payload := (pending ++ payload.intoInner.toList, .ok ())
  shouldFlush pending := 2 ≤ pending.length
  recv calls := script[(calls.filterMap Call.received).length]?.map .ok
  tryRecv calls := .ok script[(calls.filterMap Call.received).length]?
  priorityOnce calls := if calls.length < 5 then some ⟨1, false⟩ else none
  send _ _ := some (.ok (.ok []))
  codeOf _ := ()
  displayCode _ := "0"
  displayDecoder _ := ""
  displayEncoder _ := ""
  selfName := "Outgoing"
  itemName := "u64"
  build := .release

/-- The values that are pending. -/
def scriptedEncoding : Encoding (Payload Nat) (List Nat) Unit Nat where
  memory _ := ()
  pending pending := pending
  encode _ payload := ((), payload.intoInner.toList)

/-- The application sends a value, and nothing after it: the loop goes on waiting. -/
theorem works_in_batches_waiting : (log (scripted [.item 1])).FailsLast
    ((new []).ioLoop (scripted [.item 1]) 9).1.calls .waiting := by
  have hrun : (new []).ioLoop (scripted [.item 1]) 9 =
      (((new []).ioLoop (scripted [.item 1]) 9).1, some (.error .waiting)) := by
    rfl
  exact ((works_in_batches (scripted [.item 1]) [] 9 hrun).2.2 .waiting).mp rfl

/-- Two values, and a third one that is the last. -/
theorem hands_over_the_stream_scripted :
    scriptedEncoding.handed ((((new []).ioLoop (scripted [.item 1, .item 2, .last 3]) 9).1.calls).flatMap
      Call.events) = [1, 2, 3] := by
  have hrun : (new []).ioLoop (scripted [.item 1, .item 2, .last 3]) 9 =
      (((new []).ioLoop (scripted [.item 1, .item 2, .last 3]) 9).1, some (.ok ())) := by
    rfl
  have hstream := hands_over_the_stream (scripted [.item 1, .item 2, .last 3]) scriptedEncoding
    ⟨fun _ _ => rfl, fun _ _ => rfl⟩ (fun _ _ encoder' h => by cases h; exact ⟨rfl, rfl⟩) [] rfl 9 hrun
  exact (hstream.2 rfl).1

end Outgoing

end Aquic.Stream
