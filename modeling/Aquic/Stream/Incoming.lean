import Aquic.Backend.Error
import Aquic.Net.Types
import Aquic.Sync.Stream
import Mathlib.Data.List.Chain

/-!
# The loop of an incoming stream

`stream/incoming.rs`: `io_loop` receives data from the backend into the decoder, decodes it, and passes the
items on to the application. The decoder is lent to the backend for the time of a call.

The decoder, the backend and the application's channel are parameters, and what they answer may depend on
everything that has happened. A call that is never answered leaves the loop waiting. The loop runs on
fuel, one unit for each iteration, and keeps a history of its calls; cancellation, which drops it, is the
subject of the direction tasks.
-/

namespace Aquic.Backend

/-- The text of an error. -/
def Error.display : Error → String
  | .closed => "backend is closed"
  | .illegal => "illegal operation"
  | .bufferSize => "provided buffer has invalid size"
  | .unknownConnection => "unknown connection"
  | .unknownStream => "unknown stream"
  | .streamsExhausted => "streams are exhausted on this direction"
  | .streamStop err => "stream is terminated with 'STOP_SENDING(" ++ toString err ++ ")'"
  | .streamReset err => "stream is terminated with 'RESET_STREAM(" ++ toString err ++ ")'"
  | .dgramDisabled => "datagrams are not supported on this direction, or completely"
  | .other reason => reason

end Aquic.Backend

namespace Aquic.Stream

open Aquic.Net (Build)
open Aquic.Sync.Stream (Payload Error)

/-! ## The loop and the other parties

The loop owns the decoder. It talks to the backend, over an RPC channel, and to the application. -/

/-- `rpc::SendError`. -/
inductive SendError where
  | closed
  | noResponse
  deriving DecidableEq, Repr

def SendError.display : SendError → String
  | .closed => "RPC channel is closed"
  | .noResponse => "no response for a given request"

/-- The calls of the loop, with what `decode` has returned. -/
inductive Call (α D : Type) where
  | recv
  | decoded (item : Option (Payload α))
  | failed (error : D)
  | sent (item : Payload α)
  deriving DecidableEq, Repr

/-- The other parties. The answers of the backend and of the channel depend on the calls so far; `none` is
no answer at all. -/
structure Parties (Dec α C D E : Type) where
  /-- `Decoder::decode`. -/
  decode : Dec → Dec × Except D (Option (Payload α))
  /-- `InStreamBackend::recv`, which returns the decoder with more data. -/
  recv : List (Call α D) → Dec → Option (Except SendError (Except Backend.Error Dec))
  sendItem : List (Call α D) → Payload α → Option (Except (Error C D E) Unit)
  /-- The conversion of `u64` into codes of the application. -/
  codeOf : Nat → C
  /-- `type_name::<Self>()`. -/
  selfName : String
  /-- `type_name::<S::StreamItem>()`. -/
  itemName : String
  build : Build

/-- How the loop is left. -/
inductive Exit (ε : Type) where
  | returned (error : ε)
  /-- A call is not answered. -/
  | waiting
  | panicked (message : String)
  deriving DecidableEq, Repr

structure Incoming (Dec α D : Type) where
  decoder : Option Dec
  /-- The decoder is empty and expects new data. -/
  decoderDrained : Bool
  /-- `FIN` is received. -/
  streamFinished : Bool
  /-- History. -/
  calls : List (Call α D)

namespace Incoming

variable {Dec α C D E : Type} (parties : Parties Dec α C D E)

/-! ## The source

A function returns the new state of the loop, and how it goes on. -/

/-- `Incoming::new`. -/
def new (decoder : Dec) : Incoming Dec α D where
  decoder := some decoder
  decoderDrained := true
  streamFinished := false
  calls := []

def call (s : Incoming Dec α D) (call : Call α D) : Incoming Dec α D :=
  { s with calls := s.calls ++ [call] }

/-- What an error of the backend means for the stream. -/
def backendError : Backend.Error → Error C D E
  | .streamReset err => .reset (parties.codeOf err)
  | .closed => .connection
  | .unknownConnection => .connection
  | other => .hangUp ("'" ++ parties.selfName ++ "' QUIC backend RPC channel responded with '" ++
      other.display ++ "'")

/-- The decoder moves into the call of the backend. -/
def lend (s : Incoming Dec α D) : Incoming Dec α D :=
  { s with decoder := none, decoderDrained := false }.call .recv

/-- The backend has answered, or never will. -/
def received (s : Incoming Dec α D) :
    Option (Except SendError (Except Backend.Error Dec)) →
      Incoming Dec α D × Except (Exit (Error C D E)) Unit
  | none => (s, .error .waiting)
  | some (.error e) =>
    (s, .error (.returned (.hangUp ("'" ++ parties.selfName ++
      "' QUIC backend RPC channel is unavailable: " ++ e.display))))
  | some (.ok (.ok decoder)) => ({ s with decoder := some decoder }, .ok ())
  | some (.ok (.error e)) => (s, .error (.returned (backendError parties e)))

/-! ### From the backend to the decoder

The backend is asked when the decoder has nothing left; it gives the decoder back, unless it fails. -/

/-- `read_from_stream`. -/
def readFromStream (s : Incoming Dec α D) :
    Incoming Dec α D × Except (Exit (Error C D E)) Unit :=
  if s.streamFinished || !s.decoderDrained then
    (s, .ok ())
  else
    match s.decoder with
    | none => (s, .ok ())
    | some decoder =>
      s.lend.received parties (parties.recv s.lend.calls decoder)

/-- The decoder has returned, and is kept. -/
def decoded (s : Incoming Dec α D) (decoder : Dec) :
    Except D (Option (Payload α)) →
      Incoming Dec α D × Except (Exit (Error C D E)) (Option (Payload α))
  | .error e =>
    ({ s with decoder := some decoder }.call (.failed e), .error (.returned (.decoder e)))
  | .ok (some it) =>
    let s := { s with decoder := some decoder }.call (.decoded (some it))
    ({ s with streamFinished := it.isFin || s.streamFinished }, .ok (some it))
  | .ok none =>
    ({ { s with decoder := some decoder }.call (.decoded none) with decoderDrained := true },
      .ok none)

/-- `decode`. -/
def decode (s : Incoming Dec α D) :
    Incoming Dec α D × Except (Exit (Error C D E)) (Option (Payload α)) :=
  if s.streamFinished || s.decoderDrained then
    (s, .ok none)
  else
    match s.decoder with
    | none => (s, .ok none)
    | some decoder =>
      let (decoder, result) := parties.decode decoder
      s.decoded decoder result

/-! ### From the decoder to the application

An item goes to the application's channel. The channel may be closed by the application, which is an end of
the loop like others, and must not fail in another way. -/

/-- `dpanic_or_hangup`. -/
def dpanicOrHangup (message : String) : Exit (Error C D E) :=
  match parties.build with
  | .debug => .panicked message
  | .release => .returned (.hangUp message)

/-- The text for an item that is not accepted. -/
def channelUnavailable : String :=
  "'" ++ parties.selfName ++ "' decoded items '" ++ parties.itemName ++ "' channel is unavailable"

/-- What the answer of the application's channel means. -/
def accepted : Option (Except (Error C D E) Unit) → Except (Exit (Error C D E)) Unit
  | none => .error .waiting
  | some (.ok _) => .ok ()
  | some (.error (.stop code)) => .error (.returned (.stop code))
  | some (.error (.hangUp e)) =>
    .error (.returned (.hangUp (channelUnavailable parties ++ ": " ++ e)))
  | some (.error _) => .error (dpanicOrHangup parties (channelUnavailable parties))

/-- `send_to_app`. -/
def sendToApp (s : Incoming Dec α D) (item : Payload α) :
    Incoming Dec α D × Except (Exit (Error C D E)) Unit :=
  (s.call (.sent item), accepted parties (parties.sendItem s.calls item))

/-! ### The loop

An item that was marked as the last one ends it. -/

/-- An iteration from `decode` on: whether the loop is over, with `Ok(())`. -/
def decodeAndSend (s : Incoming Dec α D) :
    Incoming Dec α D × Except (Exit (Error C D E)) Bool :=
  match s.decode parties with
  | (s, .error e) => (s, .error e)
  | (s, .ok none) => (s, .ok s.streamFinished)
  | (s, .ok (some item)) =>
    match s.sendToApp parties item with
    | (s, .error e) => (s, .error e)
    | (s, .ok _) => (s, .ok s.streamFinished)

/-- One iteration of `io_loop`. -/
def iteration (s : Incoming Dec α D) : Incoming Dec α D × Except (Exit (Error C D E)) Bool :=
  if s.decoderDrained then
    match s.readFromStream parties with
    | (s, .error e) => (s, .error e)
    | (s, .ok _) => s.decodeAndSend parties
  else
    s.decodeAndSend parties

/-- `io_loop`; `none` if it goes on. -/
def ioLoop : Nat → Incoming Dec α D → Incoming Dec α D × Option (Except (Exit (Error C D E)) Unit)
  | 0, s => (s, none)
  | fuel + 1, s =>
    match s.iteration parties with
    | (s, .error e) => (s, some (.error e))
    | (s, .ok true) => (s, some (.ok ()))
    | (s, .ok false) => ioLoop fuel s

end Incoming

/-! ## Histories

The calls of the loop tell what was produced and what was passed on, and when the backend was asked. -/

namespace Call

variable {α D : Type}

/-- What the decoder has produced. -/
def produced : Call α D → Option (Payload α)
  | .decoded item => item
  | _ => none

/-- What was passed to the application. -/
def passed : Call α D → Option (Payload α)
  | .sent item => some item
  | _ => none

end Call

section

variable {α D : Type} {calls : List (Call α D)} {it : Payload α}

/-- Everything that was produced was passed on, in this order, and the backend is asked only when the
decoder has nothing left. -/
structure Faithful (calls : List (Call α D)) : Prop where
  forwards : calls.filterMap Call.passed = calls.filterMap Call.produced
  asks : calls.IsChain fun before call => call = .recv → before = .decoded none

/-- No `FIN` was produced. -/
def Open (calls : List (Call α D)) : Prop :=
  ∀ it, Call.decoded (some it) ∈ calls → it.isFin = false

/-- The backend may be asked next. -/
def Drained (calls : List (Call α D)) : Prop :=
  ∀ call ∈ calls.getLast?, call = .decoded none

theorem Faithful.nil : Faithful ([] : List (Call α D)) := ⟨rfl, .nil⟩

theorem Faithful.recv (h : Faithful calls) (hdrained : Drained calls) :
    Faithful (calls ++ [.recv]) where
  forwards := by
    simpa only [List.filterMap_append, List.filterMap_cons, Call.passed, Call.produced,
      List.filterMap_nil, List.append_nil] using h.forwards
  asks := List.isChain_append.mpr ⟨h.asks, .singleton _, fun before hbefore _ _ _ =>
    hdrained before hbefore⟩

/-- A call that neither asks nor produces nor passes anything. -/
theorem Faithful.append (h : Faithful calls) {call : Call α D} (hrecv : call ≠ .recv)
    (hproduced : call.produced = none) (hpassed : call.passed = none) :
    Faithful (calls ++ [call]) where
  forwards := by
    simpa only [List.filterMap_append, List.filterMap_cons, hproduced, hpassed,
      List.filterMap_nil, List.append_nil] using h.forwards
  asks := List.isChain_append.mpr ⟨h.asks, .singleton _, fun _ _ last hlast heq => by
    obtain rfl := Option.some.inj hlast
    exact absurd heq hrecv⟩

/-- An item is produced and passed on. -/
theorem Faithful.item (h : Faithful calls) (it : Payload α) :
    Faithful (calls ++ [.decoded (some it), .sent it]) where
  forwards := by
    simp only [List.filterMap_append, List.filterMap_cons, Call.passed, Call.produced,
      List.filterMap_nil, h.forwards]
  asks := by
    refine List.isChain_append.mpr ⟨h.asks, .cons_cons (fun heq => ?_) (.singleton _),
      fun _ _ last hlast heq => ?_⟩
    · cases heq
    · cases hlast
      cases heq

theorem Open.append (h : Open calls) {call : Call α D}
    (hcall : ∀ it, call = .decoded (some it) → it.isFin = false) : Open (calls ++ [call]) := by
  intro it hmem
  rcases List.mem_append.mp hmem with hmem | hmem
  · exact h it hmem
  · exact hcall it (List.mem_singleton.mp hmem).symm

end

namespace Incoming

variable {Dec α C D E : Type} {parties : Parties Dec α C D E} {s : Incoming Dec α D}

/-! ## The states of the loop

What is true of the history at the head of the loop, after the decoder has come back, and where the loop is
left. -/

/-- Between two iterations. -/
structure AtTop (s : Incoming Dec α D) : Prop where
  decoder : s.decoder.isSome
  unfinished : s.streamFinished = false
  drained : s.decoderDrained = true → Drained s.calls
  faithful : Faithful s.calls
  isOpen : Open s.calls

/-- The decoder is there and may have data. -/
structure Ready (s : Incoming Dec α D) : Prop where
  decoder : s.decoder.isSome
  unfinished : s.streamFinished = false
  undrained : s.decoderDrained = false
  faithful : Faithful s.calls
  isOpen : Open s.calls

theorem atTop_new (decoder : Dec) : AtTop (new decoder : Incoming Dec α D) where
  decoder := rfl
  unfinished := rfl
  drained _ _ hcall := nomatch hcall
  faithful := .nil
  isOpen _ hmem := nomatch hmem

/-- What an iteration leaves behind that does not go on. -/
structure Left (s : Incoming Dec α D) : Prop where
  faithful : Faithful s.calls
  isOpen : Open s.calls

/-- The loop is over: a `FIN` was produced and passed on, and that was the last thing. -/
structure Finished (s : Incoming Dec α D) : Prop where
  faithful : Faithful s.calls
  last : ∃ earlier it, s.calls = earlier ++ [.decoded (some it), .sent it] ∧ it.isFin = true ∧
    Open earlier

/-! ## One iteration

A lemma for each of its two halves, and from them one for the iteration. -/

/-- The backend returns the decoder, or the loop ends. -/
theorem AtTop.readFromStream (h : AtTop s) (hdrained : s.decoderDrained = true) :
    (∃ s', s.readFromStream parties = (s', .ok ()) ∧ Ready s') ∨
      ∃ s' e, s.readFromStream parties = (s', .error e) ∧ Left s' := by
  obtain ⟨decoder, hdecoder⟩ := Option.isSome_iff_exists.mp h.decoder
  have hfaithful := h.faithful.recv (h.drained hdrained)
  have hopen : Open (s.calls ++ [.recv]) := h.isOpen.append fun _ heq => nomatch heq
  have hread : s.readFromStream parties =
      s.lend.received parties (parties.recv s.lend.calls decoder) := by
    unfold Incoming.readFromStream
    rw [h.unfinished, hdrained, hdecoder]
    rfl
  rw [hread]
  cases parties.recv s.lend.calls decoder with
  | none => exact .inr ⟨s.lend, _, rfl, hfaithful, hopen⟩
  | some answer =>
    cases answer with
    | error e => exact .inr ⟨s.lend, _, rfl, hfaithful, hopen⟩
    | ok result =>
      cases result with
      | error e => exact .inr ⟨s.lend, _, rfl, hfaithful, hopen⟩
      | ok decoder =>
        exact .inl ⟨{ s.lend with decoder := some decoder }, rfl, rfl, h.unfinished, rfl, hfaithful,
          hopen⟩

/-- The rest of an iteration: it goes on, or the loop is over, or a decoder has failed. -/
theorem Ready.decodeAndSend (h : Ready s)
    (haccepts : ∀ calls item, parties.sendItem calls item = some (.ok ())) :
    (∃ s', s.decodeAndSend parties = (s', .ok false) ∧ AtTop s') ∨
      (∃ s', s.decodeAndSend parties = (s', .ok true) ∧ Finished s') ∨
      ∃ s' e, s.decodeAndSend parties = (s', .error e) ∧ Left s' := by
  obtain ⟨decoder, hdecoder⟩ := Option.isSome_iff_exists.mp h.decoder
  have hdecode : s.decode parties =
      s.decoded (parties.decode decoder).1 (parties.decode decoder).2 := by
    unfold Incoming.decode
    rw [h.unfinished, h.undrained, hdecoder]
    rfl
  unfold Incoming.decodeAndSend
  rw [hdecode]
  generalize (parties.decode decoder).1 = decoder'
  cases (parties.decode decoder).2 with
  | error e =>
    refine .inr (.inr ⟨_, _, rfl, ?_, ?_⟩)
    · exact h.faithful.append (fun heq => nomatch heq) rfl rfl
    · exact h.isOpen.append fun _ heq => nomatch heq
  | ok item =>
    cases item with
    | none =>
      refine .inl ⟨_, congrArg (Prod.mk _ <| Except.ok ·) h.unfinished, rfl, h.unfinished,
        fun _ call hcall => ?_, ?_, ?_⟩
      · have hlast : (s.calls ++ [Call.decoded none]).getLast? = some call := hcall
        rw [List.getLast?_concat] at hlast
        exact (Option.some.inj hlast).symm
      · exact h.faithful.append (fun heq => nomatch heq) rfl rfl
      · exact h.isOpen.append fun _ heq => nomatch heq
    | some it =>
      have hcalls : s.calls ++ [.decoded (some it)] ++ [.sent it] =
          s.calls ++ [.decoded (some it), .sent it] := List.append_assoc ..
      have hfaithful : Faithful (s.calls ++ [.decoded (some it)] ++ [.sent it]) :=
        hcalls ▸ h.faithful.item it
      simp only [Incoming.decoded, sendToApp, haccepts, accepted, Incoming.call, h.unfinished,
        Bool.or_false]
      cases hfin : it.isFin with
      | true =>
        exact .inr (.inl ⟨_, rfl, hfaithful, s.calls, it, hcalls, hfin, h.isOpen⟩)
      | false =>
        refine .inl ⟨_, rfl, rfl, rfl, fun hdrained => ?_, hfaithful, ?_⟩
        · exact absurd (h.undrained.symm.trans hdrained) Bool.false_ne_true
        · refine (h.isOpen.append fun it' heq => ?_).append fun _ heq => nomatch heq
          cases heq
          exact hfin

/-- **A step of the loop.** -/
theorem AtTop.iteration (h : AtTop s)
    (haccepts : ∀ calls item, parties.sendItem calls item = some (.ok ())) :
    (∃ s', s.iteration parties = (s', .ok false) ∧ AtTop s') ∨
      (∃ s', s.iteration parties = (s', .ok true) ∧ Finished s') ∨
      ∃ s' e, s.iteration parties = (s', .error e) ∧ Left s' := by
  unfold Incoming.iteration
  cases hdrained : s.decoderDrained with
  | false =>
    rw [if_neg Bool.false_ne_true]
    exact Ready.decodeAndSend ⟨h.decoder, h.unfinished, hdrained, h.faithful, h.isOpen⟩ haccepts
  | true =>
    rw [if_pos rfl]
    rcases h.readFromStream hdrained with ⟨s', hread, hready⟩ | ⟨s', e, hread, hleft⟩
    · rw [hread]
      exact hready.decodeAndSend haccepts
    · rw [hread]
      exact .inr (.inr ⟨s', e, rfl, hleft⟩)

/-! ## The whole loop

By induction on the iterations. -/

/-- A run of the loop: it goes on, or is over, or has failed. -/
theorem AtTop.ioLoop (haccepts : ∀ calls item, parties.sendItem calls item = some (.ok ()))
    (fuel : Nat) (h : AtTop s) :
    (∃ s', s.ioLoop parties fuel = (s', none) ∧ AtTop s') ∨
      (∃ s', s.ioLoop parties fuel = (s', some (.ok ())) ∧ Finished s') ∨
      ∃ s' e, s.ioLoop parties fuel = (s', some (.error e)) ∧ Left s' := by
  induction fuel generalizing s with
  | zero => exact .inl ⟨s, rfl, h⟩
  | succ fuel ih =>
    rcases h.iteration haccepts with ⟨s', hstep, hnext⟩ | ⟨s', hstep, hdone⟩ | ⟨s', e, hstep, hleft⟩
    · unfold Incoming.ioLoop
      rw [hstep]
      exact ih hnext
    · unfold Incoming.ioLoop
      rw [hstep]
      exact .inr (.inl ⟨s', rfl, hdone⟩)
    · unfold Incoming.ioLoop
      rw [hstep]
      exact .inr (.inr ⟨s', e, rfl, hleft⟩)

/-! ## Forwarding

However the loop is left, its history is in order. -/

/-- What was produced was passed on in order, the backend is asked first or after `None` only, and a `FIN`
is the last thing, after which the loop has returned. -/
structure Forwards (s : Incoming Dec α D) (result : Option (Except (Exit (Error C D E)) Unit)) :
    Prop where
  items : s.calls.filterMap Call.passed = s.calls.filterMap Call.produced
  asks : s.calls.IsChain fun before call => call = .recv → before = .decoded none
  fin it : Call.decoded (some it) ∈ s.calls → it.isFin = true → result = some (.ok ()) ∧
    ∃ earlier, s.calls = earlier ++ [.decoded (some it), .sent it] ∧ Open earlier

theorem Left.forwards (h : Left s) (result : Option (Except (Exit (Error C D E)) Unit)) :
    Forwards s result where
  items := h.faithful.forwards
  asks := h.faithful.asks
  fin it hmem hfin := absurd ((h.isOpen it hmem).symm.trans hfin) Bool.false_ne_true

theorem Finished.forwards (h : Finished s) :
    Forwards s (some (.ok ()) : Option (Except (Exit (Error C D E)) Unit)) where
  items := h.faithful.forwards
  asks := h.faithful.asks
  fin it hmem hfin := by
    obtain ⟨earlier, last, hcalls, -, hopen⟩ := h.last
    -- the only `FIN` is the last item
    obtain rfl : it = last := by
      rw [hcalls] at hmem
      rcases List.mem_append.mp hmem with hmem | hmem
      · exact absurd ((hopen it hmem).symm.trans hfin) Bool.false_ne_true
      · simpa using hmem
    exact ⟨rfl, earlier, hcalls, hopen⟩

/-- **Items are forwarded faithfully**, however long the loop has run. -/
theorem items_forwarded (parties : Parties Dec α C D E) (decoder : Dec)
    (haccepts : ∀ calls item, parties.sendItem calls item = some (.ok ())) (fuel : Nat) :
    Forwards ((new decoder).ioLoop parties fuel).1 ((new decoder).ioLoop parties fuel).2 := by
  rcases (atTop_new decoder).ioLoop haccepts fuel with
    ⟨s, hrun, hs⟩ | ⟨s, hrun, hs⟩ | ⟨s, e, hrun, hs⟩
  · rw [hrun]
    exact Left.forwards ⟨hs.faithful, hs.isOpen⟩ _
  · rw [hrun]
    exact hs.forwards
  · rw [hrun]
    exact hs.forwards _

/-! ## A run

With a backend that has nothing to add, and an application that takes everything. -/

/-- A decoder that follows a script; the backend returns it as it is. -/
def scripted : Parties (List (Option (Payload Nat))) Nat Unit Unit Unit where
  decode script := (script.tail, .ok script.head?.join)
  recv _ script := some (.ok (.ok script))
  sendItem _ _ := some (.ok ())
  codeOf _ := ()
  selfName := "Incoming"
  itemName := "u64"
  build := .debug

/-- Two items, a pause, and the last item. -/
theorem items_forwarded_scripted :
    ((new [some (.item 1), some (.item 2), none, some (.last 3)]).ioLoop scripted 9).1.calls =
      [.recv, .decoded (some (.item 1)), .sent (.item 1), .decoded (some (.item 2)),
        .sent (.item 2), .decoded none, .recv, .decoded (some (.last 3)), .sent (.last 3)] ∧
    Forwards ((new [some (.item 1), some (.item 2), none, some (.last 3)]).ioLoop scripted 9).1
      ((new [some (.item 1), some (.item 2), none, some (.last 3)]).ioLoop scripted 9).2 :=
  ⟨rfl, items_forwarded scripted _ (fun _ _ => rfl) 9⟩

end Incoming

end Aquic.Stream
