import Aquic.Dgram.Incoming
import Aquic.Lib.Batching

/-!
# The loop of outgoing datagrams

`dgram/outgoing.rs`: `io_loop` receives items of the application into the encoder, as many as there are
or until the encoder wants to be flushed, and lends the encoder to the backend. The loop of a stream does
the same, but here no item is the last one, encoding does not fail, and the loop ends only when a call
fails. Then what is encoded and not handed over is dropped with the encoder.
-/

namespace Aquic.Dgram.Outgoing

open Aquic.Net (Build)
open Aquic.Stream (Exit SendError)
open Aquic.Sync.Dgram (Error)

/-- The calls of the loop with their answers; `none` is no answer at all. -/
inductive Call (Enc α : Type) where
  | recv (answer : Option (Except Error α))
  | tryRecv (answer : Except Error (Option α))
  | encode (item : α)
  | send (encoder : Enc) (answer : Option (Except SendError (Except Backend.Error Enc)))

/-- The other parties. -/
structure Parties (Enc α : Type) where
  /-- `Encoder::encode`. -/
  encode : Enc → α → Enc
  /-- `Encoder::should_flush`. -/
  shouldFlush : Enc → Bool
  /-- `dgram::Receiver::recv`. -/
  recv : List (Call Enc α) → Option (Except Error α)
  tryRecv : List (Call Enc α) → Except Error (Option α)
  /-- `OutDgramBackend::send`, which returns the encoder. -/
  send : List (Call Enc α) → Enc → Option (Except SendError (Except Backend.Error Enc))
  /-- `type_name::<Self>()`. -/
  selfName : String
  /-- `type_name::<S::DgramItem>()`. -/
  itemName : String
  build : Build

end Outgoing

structure Outgoing (Enc α : Type) where
  encoder : Option Enc
  /-- History. -/
  calls : List (Outgoing.Call Enc α)

namespace Outgoing

open Aquic.Stream (Exit SendError)
open Aquic.Sync.Dgram (Error)
open Batching

variable {Enc α : Type} (parties : Parties Enc α)

/-- `Outgoing::new`. -/
def new (encoder : Enc) : Outgoing Enc α := { encoder := some encoder, calls := [] }

def call (s : Outgoing Enc α) (call : Call Enc α) : Outgoing Enc α :=
  { s with calls := s.calls ++ [call] }

/-- `dpanic_or_hangup`. -/
def dpanicOrHangup (message : String) : Exit Error :=
  match parties.build with
  | .debug => .panicked message
  | .release => .returned (.hangUp message)

/-- What an error of the application's channel means. -/
def channelError : Error → Exit Error
  | .ended => .returned .ended
  | .hangUp e => .returned (.hangUp ("'" ++ parties.selfName ++ "' items '" ++ parties.itemName ++
      "' channel is unavailable: " ++ e))
  | other => dpanicOrHangup parties ("'" ++ parties.selfName ++ "' items '" ++ parties.itemName ++
      "' channel returned an unexpected error: " ++ other.display)

/-- What an error of the backend means for the datagrams. -/
def backendError : Backend.Error → Error
  | .closed => .connection
  | .unknownConnection => .connection
  | other => .hangUp ("'" ++ parties.selfName ++
      "' QUIC backend responded with an unexpected error: " ++ other.display)

/-- An item was received: it is encoded. -/
def received (s : Outgoing Enc α) (encoder : Enc) (item : α) : Outgoing Enc α :=
  { s with encoder := some (parties.encode encoder item) }.call (.encode item)

/-- `recv_item`. -/
def recvItem (s : Outgoing Enc α) (blocking : Bool) :
    Outgoing Enc α × Except (Exit Error) Bool :=
  match s.encoder, blocking with
  | none, _ => (s, .ok false)
  | some encoder, true =>
    match parties.recv s.calls with
    | none => (s.call (.recv none), .error .waiting)
    | some (.error e) => (s.call (.recv (some (.error e))), .error (channelError parties e))
    | some (.ok item) => ((s.call (.recv (some (.ok item)))).received parties encoder item, .ok true)
  | some encoder, false =>
    match parties.tryRecv s.calls with
    | .error e => (s.call (.tryRecv (.error e)), .error (channelError parties e))
    | .ok none => (s.call (.tryRecv (.ok none)), .ok false)
    | .ok (some item) =>
      ((s.call (.tryRecv (.ok (some item)))).received parties encoder item, .ok true)

/-- The encoder wants to be flushed. -/
def shouldFlush (s : Outgoing Enc α) : Bool := s.encoder.any parties.shouldFlush

/-- The rest of a batch; `none` if it goes on. -/
def recvMore : Nat → Outgoing Enc α → Outgoing Enc α × Option (Except (Exit Error) Unit)
  | 0, s => (s, none)
  | fuel + 1, s =>
    match s.recvItem parties false with
    | (s, .error e) => (s, some (.error e))
    | (s, .ok false) => (s, some (.ok ()))
    | (s, .ok true) => if s.shouldFlush parties then (s, some (.ok ())) else recvMore fuel s

/-- `recv_from_app`. -/
def recvFromApp (fuel : Nat) (s : Outgoing Enc α) :
    Outgoing Enc α × Option (Except (Exit Error) Unit) :=
  if s.encoder.isNone then
    (s, some (.ok ()))
  else
    match s.recvItem parties true with
    | (s, .error e) => (s, some (.error e))
    | (s, .ok false) => (s, some (.ok ()))
    | (s, .ok true) => if s.shouldFlush parties then (s, some (.ok ())) else recvMore parties fuel s

/-- What the answer of the backend means. -/
def sent (s : Outgoing Enc α) :
    Option (Except SendError (Except Backend.Error Enc)) → Outgoing Enc α × Except (Exit Error) Unit
  | none => (s, .error .waiting)
  | some (.error e) =>
    (s, .error (.returned (.hangUp ("'" ++ parties.selfName ++
      "' QUIC backend RPC channel is unavailable: " ++ e.display))))
  | some (.ok (.ok encoder)) => ({ s with encoder := some encoder }, .ok ())
  | some (.ok (.error e)) => (s, .error (.returned (backendError parties e)))

/-- `send_to_backend`. -/
def sendToBackend (s : Outgoing Enc α) : Outgoing Enc α × Except (Exit Error) Unit :=
  match s.encoder with
  | none => (s, .ok ())
  | some encoder =>
    let answer := parties.send s.calls encoder
    ({ s with encoder := none }.call (.send encoder answer)).sent parties answer

/-- `io_loop`; `none` if it goes on. -/
def ioLoop : Nat → Outgoing Enc α → Outgoing Enc α × Option (Exit Error)
  | 0, s => (s, none)
  | fuel + 1, s =>
    match s.recvFromApp parties fuel with
    | (s, none) => (s, none)
    | (s, some (.error e)) => (s, some e)
    | (s, some (.ok _)) =>
      match s.sendToBackend parties with
      | (s, .error e) => (s, some e)
      | (s, .ok _) => ioLoop fuel s

/-! ## The log -/

namespace Call

def received : Call Enc α → Option α
  | .recv (some (.ok item)) => some item
  | .tryRecv (.ok (some item)) => some item
  | _ => none

def encoded : Call Enc α → Option α
  | .encode item => some item
  | _ => none

/-- How the answer ends the loop. -/
def failure : Call Enc α → Option (Exit Error)
  | .recv none => some .waiting
  | .recv (some (.error e)) => some (channelError parties e)
  | .tryRecv (.error e) => some (channelError parties e)
  | .send _ none => some .waiting
  | .send _ (some (.error e)) =>
    some (.returned (.hangUp ("'" ++ parties.selfName ++
      "' QUIC backend RPC channel is unavailable: " ++ e.display)))
  | .send _ (some (.ok (.error e))) => some (.returned (backendError parties e))
  | _ => none

/-- What a call is to the encoder. -/
def events : Call Enc α → List (Event α Enc)
  | .recv _ => [.wait]
  | .tryRecv _ => []
  | .encode item => [.take item]
  | .send encoder (some (.ok (.ok encoder'))) => [.lend encoder, .back encoder']
  | .send encoder _ => [.lend encoder]

end Call

def log : Log (Call Enc α) α Enc (Exit Error) where
  events := Call.events
  received := Call.received
  added := Call.encoded
  failure := Call.failure parties

/-- An item is encoded, none is final, and the backend gives the encoder back. -/
def rules : Rules α Enc where
  add := parties.encode
  isFin _ := false
  gives encoder encoder' := ∃ calls, parties.send calls encoder = some (.ok (.ok encoder'))

theorem log_lawful : (log parties).Lawful where
  added call _ := by
    cases call with
    | send encoder answer => rcases answer with _ | _ | _ | _ <;> rfl
    | recv | tryRecv | encode => rfl
  failed call := by
    cases call with
    | encode item => exact List.prefix_rfl
    | send encoder answer => rcases answer with _ | _ | _ | _ <;> exact List.nil_prefix
    | recv | tryRecv => exact List.nil_prefix

/-! ## A run of the loop -/

variable {parties} {encoder₀ : Enc} {s : Outgoing Enc α} {phase : Phase Enc}

abbrev Underway (parties : Parties Enc α) (encoder₀ : Enc) (s : Outgoing Enc α) (phase : Phase Enc) :
    Prop :=
  (log parties).Underway (rules parties) encoder₀ s.calls phase false

abbrev Failed (parties : Parties Enc α) (encoder₀ : Enc) (s : Outgoing Enc α) (exit : Exit Error) :
    Prop :=
  (log parties).Failed (rules parties) encoder₀ s.calls exit

/-- Between two iterations. -/
def Idle (parties : Parties Enc α) (encoder₀ : Enc) (s : Outgoing Enc α) : Prop :=
  ∃ encoder, s.encoder = some encoder ∧ Underway parties encoder₀ s (.idle encoder)

/-- There is something to send. -/
def Filled (parties : Parties Enc α) (encoder₀ : Enc) (s : Outgoing Enc α) : Prop :=
  ∃ encoder, s.encoder = some encoder ∧ Underway parties encoder₀ s (.filled encoder)

theorem idle_new : Idle parties encoder₀ (new encoder₀) := ⟨encoder₀, rfl, Log.underway_nil⟩

/-- An item is received with the call `call`, and encoded. -/
theorem filled_received (h : Underway parties encoder₀ s phase) {call : Call Enc α} {item : α}
    (hreceived : call.received = some item) (hencoded : call.encoded = none)
    (hfailure : call.failure parties = none) {encoder : Enc} {phase' : Phase Enc}
    (hphase : phase' = .idle encoder ∨ phase' = .filled encoder)
    (hprotocol : (log parties).Protocol (rules parties) encoder₀ (s.calls ++ [call]) phase' false) :
    Filled parties encoder₀ ((s.call call).received parties encoder item) :=
  ⟨_, rfl, h.item hreceived hencoded hfailure hphase hprotocol rfl rfl rfl rfl⟩

/-- `recv_item` from the top of an iteration. -/
theorem Idle.recvItem (h : Idle parties encoder₀ s) :
    (∃ s', s.recvItem parties true = (s', .ok true) ∧ Filled parties encoder₀ s') ∨
      ∃ s' e, s.recvItem parties true = (s', .error e) ∧ Failed parties encoder₀ s' e := by
  obtain ⟨encoder, hencoder, hunderway⟩ := h
  have hwait : ∀ answer, (log parties).Protocol (rules parties) encoder₀
      (s.calls ++ [.recv answer]) (.idle encoder) false := by
    intro answer
    unfold Log.Protocol
    rw [Log.flatMap_concat]
    exact hunderway.protocol.wait
  unfold Outgoing.recvItem
  rw [hencoder]
  cases hanswer : parties.recv s.calls with
  | none => exact .inr ⟨_, _, rfl, hunderway.fail rfl rfl (hwait none)⟩
  | some answer =>
    cases answer with
    | error e => exact .inr ⟨_, _, rfl, hunderway.fail rfl rfl (hwait _)⟩
    | ok item => exact .inl ⟨_, rfl, filled_received hunderway rfl rfl rfl (.inl rfl) (hwait _)⟩

/-- `recv_item` in the middle of a batch. -/
theorem Filled.recvItem (h : Filled parties encoder₀ s) :
    (∃ s' more, s.recvItem parties false = (s', .ok more) ∧ Filled parties encoder₀ s') ∨
      ∃ s' e, s.recvItem parties false = (s', .error e) ∧ Failed parties encoder₀ s' e := by
  obtain ⟨encoder, hencoder, hunderway⟩ := h
  have hasks : ∀ answer, (log parties).Protocol (rules parties) encoder₀
      (s.calls ++ [.tryRecv answer]) (.filled encoder) false := by
    intro answer
    unfold Log.Protocol
    rw [Log.flatMap_concat]
    exact (List.append_nil _).symm ▸ hunderway.protocol
  unfold Outgoing.recvItem
  rw [hencoder]
  cases hanswer : parties.tryRecv s.calls with
  | error e => exact .inr ⟨_, _, rfl, hunderway.fail rfl rfl (hasks _)⟩
  | ok answer =>
    cases answer with
    | none => exact .inl ⟨_, false, rfl, encoder, hencoder, hunderway.aside rfl rfl rfl⟩
    | some item =>
      exact .inl ⟨_, true, rfl, filled_received hunderway rfl rfl rfl (.inr rfl) (hasks _)⟩

/-- A batch, as far as it has come. -/
def Batched (parties : Parties Enc α) (encoder₀ : Enc)
    (outcome : Outgoing Enc α × Option (Except (Exit Error) Unit)) : Prop :=
  match outcome with
  | (s, none) => Filled parties encoder₀ s
  | (s, some (.ok _)) => Filled parties encoder₀ s
  | (s, some (.error e)) => Failed parties encoder₀ s e

theorem Filled.recvMore (fuel : Nat) (h : Filled parties encoder₀ s) :
    Batched parties encoder₀ (s.recvMore parties fuel) := by
  induction fuel generalizing s with
  | zero => exact h
  | succ fuel ih =>
    unfold Outgoing.recvMore
    rcases h.recvItem with ⟨s', more, hitem, hfilled⟩ | ⟨s', e, hitem, hfailed⟩
    · rw [hitem]
      cases more with
      | false => exact hfilled
      | true =>
        simp only
        split
        · exact hfilled
        · exact ih hfilled
    · rw [hitem]
      exact hfailed

theorem Idle.recvFromApp (fuel : Nat) (h : Idle parties encoder₀ s) :
    Batched parties encoder₀ (s.recvFromApp parties fuel) := by
  unfold Outgoing.recvFromApp
  have hsome : s.encoder.isNone = false := by
    obtain ⟨encoder, hencoder, -⟩ := h
    rw [hencoder]
    rfl
  rw [hsome]
  simp only [Bool.false_eq_true, if_false]
  rcases h.recvItem with ⟨s', hitem, hfilled⟩ | ⟨s', e, hitem, hfailed⟩
  · rw [hitem]
    simp only
    split
    · exact hfilled
    · exact hfilled.recvMore fuel
  · rw [hitem]
    exact hfailed

/-- `send_to_backend`: the encoder comes back, or the loop ends. -/
theorem Filled.sendToBackend (h : Filled parties encoder₀ s) :
    (∃ s', s.sendToBackend parties = (s', .ok ()) ∧ Idle parties encoder₀ s') ∨
      ∃ s' e, s.sendToBackend parties = (s', .error e) ∧ Failed parties encoder₀ s' e := by
  obtain ⟨encoder, hencoder, hunderway⟩ := h
  have hlent : ∀ answer, (Call.send encoder answer : Call Enc α).events = [.lend encoder] →
      (log parties).Protocol (rules parties) encoder₀ (s.calls ++ [.send encoder answer])
        (.lent encoder) false := by
    intro answer hevents
    unfold Log.Protocol
    rw [Log.flatMap_concat]
    show Follows _ _ _ _ (_ ++ (Call.send encoder answer).events) _ _
    rw [hevents]
    exact hunderway.protocol.lend
  unfold Outgoing.sendToBackend
  simp only [hencoder]
  cases hanswer : parties.send s.calls encoder with
  | none => exact .inr ⟨_, _, rfl, hunderway.fail rfl rfl (hlent none rfl)⟩
  | some answer =>
    cases answer with
    | error e => exact .inr ⟨_, _, rfl, hunderway.fail rfl rfl (hlent _ rfl)⟩
    | ok result =>
      cases result with
      | error e => exact .inr ⟨_, _, rfl, hunderway.fail rfl rfl (hlent _ rfl)⟩
      | ok encoder' =>
        refine .inl ⟨_, rfl, encoder', rfl, hunderway.append rfl rfl ?_⟩
        have hback := hunderway.protocol.lend.back ⟨s.calls, hanswer⟩
        unfold Log.Protocol
        rw [Log.flatMap_concat]
        rwa [List.append_assoc] at hback

/-- **A run of the loop.** -/
theorem Idle.ioLoop (fuel : Nat) (h : Idle parties encoder₀ s) :
    (log parties).Ran (rules parties) encoder₀ (s.ioLoop parties fuel).1.calls
      ((s.ioLoop parties fuel).2.map .error) := by
  induction fuel generalizing s with
  | zero =>
    obtain ⟨encoder, -, hunderway⟩ := h
    exact ⟨_, _, hunderway⟩
  | succ fuel ih =>
    have hbatch := h.recvFromApp fuel
    unfold Outgoing.ioLoop
    rcases hrecv : s.recvFromApp parties fuel with ⟨s₁, _ | e | _⟩
    · rw [hrecv] at hbatch
      obtain ⟨encoder, -, hunderway⟩ := hbatch
      exact ⟨_, _, hunderway⟩
    · rw [hrecv] at hbatch
      exact hbatch
    · rw [hrecv] at hbatch
      have hfilled : Filled parties encoder₀ s₁ := hbatch
      simp only
      rcases hfilled.sendToBackend with ⟨s₂, hsend, hidle⟩ | ⟨s₂, e, hsend, hfailed⟩
      · rw [hsend]
        exact ih hidle
      · rw [hsend]
        exact hfailed

/-- **The outgoing datagram loop**, for every encoder, application and backend: it encodes what it receives, in
order; it waits for the application only when everything is handed over, and never lends an encoder with
nothing new in it; and it ends as the first failed call says, and no call follows that one. With an encoder
that makes datagrams of the items, and a backend that returns it when it has worked them off, the backend
has been handed at any time a prefix of the datagrams of what was received. -/
theorem hands_over_items (parties : Parties Enc α) (encoder : Enc) (fuel : Nat) {s : Outgoing Enc α}
    {result : Option (Exit Error)} (hrun : (new encoder).ioLoop parties fuel = (s, result)) :
    (log parties).Forwarded s.calls ∧
    (∃ phase fin, (log parties).Protocol (rules parties) encoder s.calls phase fin) ∧
    (∀ exit, result = some exit ↔ (log parties).FailsLast s.calls exit) ∧
    ∀ (τ β : Type) (encoding : Encoding α Enc τ β), encoding.Lawful parties.encode →
      (∀ calls encoder encoder', parties.send calls encoder = some (.ok (.ok encoder')) →
        encoding.Flushed encoder encoder') →
      encoding.pending encoder = [] →
      encoding.handed (s.calls.flatMap Call.events) <+:
        encoding.output (encoding.memory encoder) (s.calls.filterMap Call.received) := by
  have hnew : Idle parties encoder (new encoder) := idle_new
  have hran := hnew.ioLoop fuel
  rw [hrun] at hran
  obtain ⟨hforwarded, ⟨phase, fin, hprotocol, -⟩, hfails⟩ := hran.goes_in_batches
  refine ⟨hforwarded, ⟨phase, fin, hprotocol⟩, fun exit => ?_, ?_⟩
  · rw [← hfails exit]
    cases result <;> simp
  · intro τ β encoding hencoding hsend hempty
    have hgives : ∀ encoder encoder', (rules parties).gives encoder encoder' →
        encoding.Flushed encoder encoder' := by
      rintro encoder encoder' ⟨calls, hanswer⟩
      exact hsend calls encoder encoder' hanswer
    exact (hran.handed_isPrefix (log_lawful parties) hencoding hgives hempty).1

/-- An encoder that makes one datagram of each number; the application sends three of them and ends. -/
def scripted : Parties (List (List Nat)) Nat where
  encode pending n := pending ++ [[n, n]]
  shouldFlush pending := 2 ≤ pending.length
  recv calls :=
    match [1, 2, 3][(calls.filterMap Call.received).length]? with
    | some n => some (.ok n)
    | none => some (.error .ended)
  tryRecv calls := .ok [1, 2, 3][(calls.filterMap Call.received).length]?
  send _ _ := some (.ok (.ok []))
  selfName := "Outgoing"
  itemName := "u64"
  build := .release

def scriptedEncoding : Encoding Nat (List (List Nat)) Unit (List Nat) where
  memory _ := ()
  pending pending := pending
  encode _ n := ((), [[n, n]])

theorem hands_over_items_scripted :
    scriptedEncoding.handed (((new []).ioLoop scripted 9).1.calls.flatMap Call.events) <+:
      scriptedEncoding.output () [1, 2, 3] ∧
    (log scripted).FailsLast ((new []).ioLoop scripted 9).1.calls (.returned .ended) := by
  have hrun : (new []).ioLoop scripted 9 =
      (((new []).ioLoop scripted 9).1, some (.returned .ended)) := by
    rfl
  obtain ⟨-, -, hfails, hbegins⟩ := hands_over_items scripted [] 9 hrun
  exact ⟨hbegins _ _ scriptedEncoding ⟨fun _ _ => rfl, fun _ _ => rfl⟩
    (fun _ _ _ h => by cases h; exact ⟨rfl, rfl⟩) rfl, (hfails _).mp rfl⟩

end Outgoing

end Aquic.Dgram
