import Aquic.Lib.Decoding
import Aquic.Stream.Application
import Aquic.Stream.Incoming

/-!
# From one application to the other

A stream has two ends. At the near end the application sends payloads through a channel, and the loop of the
outgoing stream encodes them and hands them to the backend. At the far end the loop of the incoming stream
decodes what its backend has received, and sends the items through a channel to the application.

What lies between is not aquic's: the network, of which is known that it delivers the beginning of what was
handed over, and the codec, whose decoder reads what its encoder has written.
-/

namespace Aquic.Stream

open Aquic.Run
open Aquic.Sync.Stream (Channel Payload Error Label)
open Batching (Encoding)
open Decoding (Format Lawful Within Fed Writes)

/-! ## The far end: from the loop to the application -/

namespace Incoming

variable {Dec α C D E : Type} {ch ch' : Channel α C D E} {calls : List (Call α D)}

/-- The loop calls `send_item`. -/
def sends : Label α C D E → Bool
  | .sendItem .. => true
  | _ => false

/-- The log of a loop whose items go into the channel. An error ends the loop, so it calls `send_item`
when all calls so far have returned `Ok(())`. -/
inductive Served : Channel α C D E → List (Call α D) → Prop
  | start (bound : Nat) : Served (Sync.Stream.channel bound) []
  /-- The application or the loop's call goes on; or the loop is dropped, with its call and the sender. -/
  | step {ch ch' : Channel α C D E} {calls : List (Call α D)} {l : Label α C D E} :
      Served ch calls → sends l = false → ch.exec l = some ch' → Served ch' calls
  | send {ch ch' : Channel α C D E} {calls : List (Call α D)} {item : Payload α} {weight : Nat} :
      Served ch calls → ch.sendResults = (calls.filterMap Call.passed).map (fun _ => none) →
      ch.exec (.sendItem item weight) = some ch' → Served ch' (calls ++ [.sent item])
  /-- A call of the loop that is not for the channel. -/
  | other {ch : Channel α C D E} {calls : List (Call α D)} {call : Call α D} :
      Served ch calls → call.passed = none → Served ch (calls ++ [call])

theorem Served.reachable (h : Served ch calls) :
    Reachable Channel.Init anyStep Channel.exec ch := by
  induction h with
  | start bound => exact .init ⟨bound, rfl⟩
  | step _ _ hexec ih => exact ih.step trivial hexec
  | send _ _ hexec ih => exact ih.step trivial hexec
  | other _ _ ih => exact ih

/-- Where the items are that were passed to the channel. -/
def Passing (ch : Channel α C D E) (passed : List (Payload α)) : Prop :=
  match ch.sender with
  | .idle => ch.enqueued <+: passed ∧
      (ch.sendResults = passed.map (fun _ => none) → ch.enqueued = passed)
  | .pollingError item _ | .reserving item _ | .suspended item _ | .enqueuing item _ =>
    passed = ch.enqueued ++ [item] ∧ ch.sendResults = ch.enqueued.map fun _ => none
  | .closing => passed = ch.enqueued
  | .dropping | .dropped => ch.enqueued <+: passed

/-- A call of `send_item` that has not returned `Ok(())`. -/
theorem passing_of_failed {passed : List (Payload α)} {item : Payload α}
    (hpassed : passed = ch.enqueued ++ [item]) (hidle : ch.sender = .idle)
    (hresults : ch.sendResults ≠ passed.map fun _ => none) : Passing ch passed := by
  unfold Passing
  rw [hidle]
  exact ⟨hpassed ▸ List.prefix_append .., fun heq => absurd heq hresults⟩

theorem Passing.senderStep {passed : List (Payload α)} (h : Passing ch passed)
    (hstep : ch.senderStep = some ch') : Passing ch' passed := by
  unfold Passing at h
  cases hs : ch.sender with
  | idle | dropped => simp [Channel.senderStep, hs] at hstep
  | dropping =>
    simp only [Channel.senderStep, hs, Option.some.injEq] at hstep
    subst hstep
    rw [hs] at h
    exact h
  | closing =>
    rw [hs] at h
    simp only [Channel.senderStep, hs, Channel.close_eq, Option.some.injEq] at hstep
    subst hstep
    exact ⟨h ▸ List.prefix_rfl, fun _ => h.symm⟩
  | suspended item weight =>
    rw [hs] at h
    simp only [Channel.senderStep, hs, Option.some.injEq] at hstep
    subst hstep
    exact h
  | pollingError item weight | reserving item weight =>
    rw [hs] at h
    obtain ⟨hpassed, hresults⟩ := h
    simp only [Channel.senderStep, hs, Channel.sendFailed, Channel.close_eq] at hstep
    repeat' split at hstep
    all_goals cases hstep
    all_goals first
      | exact ⟨hpassed, hresults⟩
      | exact passing_of_failed hpassed rfl (by simp [Channel.sent, hresults, hpassed])
  | enqueuing item weight =>
    rw [hs] at h
    obtain ⟨hpassed, hresults⟩ := h
    simp only [Channel.senderStep, hs, Channel.sendFailed, Channel.close_eq] at hstep
    repeat' split at hstep
    all_goals cases hstep
    · exact passing_of_failed hpassed rfl (by simp [Channel.sent, hresults, hpassed])
    · exact hpassed
    · exact ⟨hpassed ▸ List.prefix_rfl, fun _ => hpassed.symm⟩

/-- A step of the receiver. -/
theorem sendResults_byReceiver {l : Label α C D E} (hl : l.bySender = false)
    (hexec : ch.exec l = some ch') : ch'.sendResults = ch.sendResults := by
  cases l with
  | receiverStep =>
    simp only [Channel.exec, Channel.receiverStep, Channel.recvFailed, Channel.close_eq] at hexec
    repeat' split at hexec
    all_goals cases hexec
    all_goals rfl
  | recv | tryRecv | receiverCancel | receiverTerminate | receiverDrop =>
    simp only [Channel.exec, Channel.close_eq] at hexec
    split at hexec <;> cases hexec
    all_goals rfl
  | _ => cases hl

theorem Passing.step {passed : List (Payload α)} (h : Passing ch passed) {l : Label α C D E}
    (hl : sends l = false) (hexec : ch.exec l = some ch') : Passing ch' passed := by
  cases hby : l.bySender with
  | false =>
    have hsender := Channel.exec_byReceiver hby hexec
    have henqueued := Sync.Stream.enqueued_byReceiver hby hexec
    have hresults := sendResults_byReceiver hby hexec
    unfold Passing at h ⊢
    rw [hsender, henqueued, hresults]
    exact h
  | true =>
    cases l with
    | sendItem => cases hl
    | senderStep => exact h.senderStep hexec
    | senderCancel =>
      simp only [Channel.exec] at hexec
      split at hexec
      · next item weight hs =>
        cases hexec
        simp only [Passing, hs] at h
        refine passing_of_failed h.1 rfl ?_
        intro heq
        have hlength := congrArg List.length (h.2.symm.trans heq)
        simp [h.1] at hlength
      · cases hexec
    | senderTerminate | senderDrop =>
      simp only [Channel.exec, Channel.close_eq] at hexec
      split at hexec
      · next hs =>
        cases hexec
        simp only [Passing, hs] at h ⊢
        first
        | exact h
        | exact h.1
      · cases hexec
    | _ => cases hby

theorem Served.steps (h : Served ch calls) {labels : List (Label α C D E)}
    (hlabels : ∀ l ∈ labels, sends l = false)
    (hrun : runAll anyStep Channel.exec ch labels = some ch') : Served ch' calls := by
  induction labels generalizing ch with
  | nil => exact Option.some.inj hrun ▸ h
  | cons l labels ih =>
    obtain ⟨ch₁, hexec, hrest⟩ := Option.bind_eq_some_iff.mp hrun
    exact ih (h.step (hlabels l List.mem_cons_self) hexec)
      (fun l hl => hlabels l (List.mem_cons_of_mem _ hl)) hrest

theorem Served.passing (h : Served ch calls) : Passing ch (calls.filterMap Call.passed) := by
  induction h with
  | start bound => exact ⟨List.prefix_rfl, fun _ => rfl⟩
  | step _ hl hexec ih => exact ih.step hl hexec
  | @send ch ch' calls item weight _ hresults hexec ih =>
    simp only [Channel.exec] at hexec
    split at hexec
    · next hs =>
      cases hexec
      simp only [Passing, hs] at ih ⊢
      have henqueued := ih.2 hresults
      rw [List.filterMap_append, ← henqueued]
      exact ⟨rfl, henqueued ▸ hresults⟩
    · cases hexec
  | other _ hcall ih =>
    rwa [List.filterMap_append, List.filterMap_cons, hcall, List.filterMap_nil, List.append_nil]

theorem Passing.isPrefix {passed : List (Payload α)} (h : Passing ch passed) :
    ch.enqueued <+: passed := by
  unfold Passing at h
  split at h
  · exact h.1
  all_goals first
    | exact h.1 ▸ List.prefix_append ..
    | exact h ▸ List.prefix_rfl
    | exact h

/-- The application receives the beginning of what the loop has passed on. -/
theorem Served.returned_isPrefix (h : Served ch calls) :
    ch.returned <+: calls.filterMap Call.passed :=
  (Sync.Stream.returned_isPrefix h.reachable).trans h.passing.isPrefix

/-! ## The far end: from the backend to the loop -/

variable {β : Type} {parties : Parties Dec α C D E} {F : Format β (Payload α)}
  {Reads : Dec → List β → List (Payload α) → Prop} {stream : List β} {s : Incoming Dec α D}

/-- What the loop has got out of the decoder, and passed on, is what the format says of the stream. -/
structure Reading (F : Format β (Payload α)) (Reads : Dec → List β → List (Payload α) → Prop)
    (stream : List β) (s : Incoming Dec α D) : Prop where
  forwards : s.calls.filterMap Call.passed = s.calls.filterMap Call.produced
  produced : s.calls.filterMap Call.produced <+: F.parse stream
  decoder : ∀ dec, s.decoder = some dec → Within Reads stream dec (s.calls.filterMap Call.produced)

/-- Without a decoder. -/
structure Stopped (F : Format β (Payload α)) (stream : List β) (s : Incoming Dec α D) : Prop where
  forwards : s.calls.filterMap Call.passed = s.calls.filterMap Call.produced
  produced : s.calls.filterMap Call.produced <+: F.parse stream

theorem Reading.stopped (h : Reading F Reads stream s) : Stopped F stream s := ⟨h.forwards, h.produced⟩

/-- A call that neither produces nor passes anything. -/
theorem Stopped.call (h : Stopped F stream s) (call : Call α D) (hproduced : call.produced = none)
    (hpassed : call.passed = none) : Stopped F stream (s.call call) where
  forwards := by
    simpa [Incoming.call, List.filterMap_append, hproduced, hpassed] using h.forwards
  produced := by
    simpa [Incoming.call, List.filterMap_append, hproduced] using h.produced

theorem reading_new {decoder : Dec} (hfresh : Reads decoder [] []) :
    Reading F Reads stream (new decoder : Incoming Dec α D) where
  forwards := rfl
  produced := List.nil_prefix
  decoder dec hdec := by
    cases hdec
    exact ⟨[], hfresh, List.nil_prefix⟩

/-- The decoder comes back with more of the stream, or the loop ends. -/
theorem Reading.readFromStream (h : Reading F Reads stream s)
    (hfed : ∀ calls dec dec', parties.recv calls dec = some (.ok (.ok dec')) →
      Fed Reads stream (calls.filterMap Call.produced) dec dec') :
    (∃ s', s.readFromStream parties = (s', .ok ()) ∧ Reading F Reads stream s') ∨
      ∃ s' e, s.readFromStream parties = (s', .error e) ∧ Stopped F stream s' := by
  unfold Incoming.readFromStream
  split
  · exact .inl ⟨s, rfl, h⟩
  cases hdecoder : s.decoder with
  | none => exact .inl ⟨s, rfl, h⟩
  | some dec =>
    have hlent : Stopped F stream s.lend := by
      have hcall := h.stopped.call .recv rfl rfl
      exact ⟨hcall.forwards, hcall.produced⟩
    dsimp only
    cases hrecv : parties.recv s.lend.calls dec with
    | none => exact .inr ⟨s.lend, _, rfl, hlent⟩
    | some answer =>
      rcases answer with e | e | dec'
      · exact .inr ⟨s.lend, _, rfl, hlent⟩
      · exact .inr ⟨s.lend, _, rfl, hlent⟩
      · refine .inl ⟨_, rfl, hlent.forwards, hlent.produced, fun dec'' heq => ?_⟩
        cases heq
        have hproduced : s.lend.calls.filterMap Call.produced = s.calls.filterMap Call.produced := by
          simp [lend, Incoming.call, Call.produced]
        refine hfed _ dec dec' hrecv ?_
        rw [hproduced]
        exact h.decoder dec hdecoder

/-- An item that the decoder has made is passed on. -/
theorem Reading.item (h : Reading F Reads stream s) (hlaw : Lawful F parties.decode Reads)
    {dec dec' : Dec} {it : Payload α} (hdecoder : s.decoder = some dec)
    (hdecode : parties.decode dec = (dec', .ok (some it))) {s' : Incoming Dec α D}
    (hcalls : s'.calls = s.calls ++ [.decoded (some it)] ++ [.sent it]) (hnext : s'.decoder = some dec') :
    Reading F Reads stream s' := by
  have hproduced : s'.calls.filterMap Call.produced = s.calls.filterMap Call.produced ++ [it] := by
    simp [hcalls, Call.produced]
  have hwithin := (h.decoder dec hdecoder).item hlaw hdecode
  refine ⟨?_, ?_, fun dec'' heq => ?_⟩
  · rw [hproduced, ← h.forwards, hcalls, List.append_assoc, List.filterMap_append]
    rfl
  · exact hproduced ▸ hwithin.isPrefix hlaw
  · obtain rfl := Option.some.inj (hnext.symm.trans heq)
    exact hproduced ▸ hwithin

/-- `decode`: what it makes is passed on next. -/
theorem Reading.decode (h : Reading F Reads stream s) (hlaw : Lawful F parties.decode Reads) :
    (∃ s', s.decode parties = (s', .ok none) ∧ Reading F Reads stream s') ∨
      (∃ s' it, s.decode parties = (s', .ok (some it)) ∧ Reading F Reads stream (s'.call (.sent it))) ∨
      ∃ s' e, s.decode parties = (s', .error e) ∧ Stopped F stream s' := by
  unfold Incoming.decode
  split
  · exact .inl ⟨s, rfl, h⟩
  cases hdecoder : s.decoder with
  | none => exact .inl ⟨s, rfl, h⟩
  | some dec =>
    cases hdecode : parties.decode dec with
    | mk dec' result =>
      simp only [hdecode]
      rcases result with e | _ | it
      · have hcall := h.stopped.call (.failed e) rfl rfl
        exact .inr (.inr ⟨_, _, rfl, hcall.forwards, hcall.produced⟩)
      · have hcall := h.stopped.call (.decoded none) rfl rfl
        refine .inl ⟨_, rfl, hcall.forwards, hcall.produced, fun dec'' heq => ?_⟩
        cases heq
        have hproduced : (s.call (.decoded none)).calls.filterMap Call.produced =
            s.calls.filterMap Call.produced := by
          simp [Incoming.call, Call.produced]
        show Within Reads stream dec' ((s.call (.decoded none)).calls.filterMap Call.produced)
        rw [hproduced]
        exact (h.decoder dec hdecoder).nothing hlaw hdecode
      · exact .inr (.inl ⟨_, it, rfl, h.item hlaw hdecoder hdecode rfl rfl⟩)

theorem Reading.decodeAndSend (h : Reading F Reads stream s) (hlaw : Lawful F parties.decode Reads) :
    (∃ s' finished, s.decodeAndSend parties = (s', .ok finished) ∧ Reading F Reads stream s') ∨
      ∃ s' e, s.decodeAndSend parties = (s', .error e) ∧ Stopped F stream s' := by
  unfold Incoming.decodeAndSend
  rcases h.decode hlaw with ⟨s', heq, hs'⟩ | ⟨s', it, heq, hs'⟩ | ⟨s', e, heq, hs'⟩
  · rw [heq]
    exact .inl ⟨s', _, rfl, hs'⟩
  · rw [heq]
    simp only [sendToApp]
    cases accepted parties (parties.sendItem s'.calls it) with
    | error e => exact .inr ⟨_, e, rfl, hs'.stopped⟩
    | ok _ => exact .inl ⟨_, _, rfl, hs'⟩
  · rw [heq]
    exact .inr ⟨s', e, rfl, hs'⟩

/-- **A step of the loop.** -/
theorem Reading.iteration (h : Reading F Reads stream s) (hlaw : Lawful F parties.decode Reads)
    (hfed : ∀ calls dec dec', parties.recv calls dec = some (.ok (.ok dec')) →
      Fed Reads stream (calls.filterMap Call.produced) dec dec') :
    (∃ s' finished, s.iteration parties = (s', .ok finished) ∧ Reading F Reads stream s') ∨
      ∃ s' e, s.iteration parties = (s', .error e) ∧ Stopped F stream s' := by
  unfold Incoming.iteration
  split
  · rcases h.readFromStream hfed with ⟨s', heq, hs'⟩ | ⟨s', e, heq, hs'⟩
    · rw [heq]
      exact hs'.decodeAndSend hlaw
    · rw [heq]
      exact .inr ⟨s', e, rfl, hs'⟩
  · exact h.decodeAndSend hlaw

/-- **A run of the loop.** -/
theorem Reading.ioLoop (hlaw : Lawful F parties.decode Reads)
    (hfed : ∀ calls dec dec', parties.recv calls dec = some (.ok (.ok dec')) →
      Fed Reads stream (calls.filterMap Call.produced) dec dec') (fuel : Nat) (h : Reading F Reads stream s) :
    Stopped F stream (s.ioLoop parties fuel).1 := by
  induction fuel generalizing s with
  | zero => exact h.stopped
  | succ fuel ih =>
    unfold Incoming.ioLoop
    rcases h.iteration hlaw hfed with ⟨s', finished, heq, hs'⟩ | ⟨s', e, heq, hs'⟩
    · rw [heq]
      cases finished with
      | true => exact hs'.stopped
      | false => exact ih hs'
    · rw [heq]
      exact hs'

end Incoming

/-! ## Both ends -/

variable {Enc Dec α C D E τ β : Type}

/-- **What arrives is what was sent.** The network delivers the beginning of what the near end has handed
over, and the codec reads what it has written. Then the far application has received, at any time, the
beginning of what the near application has sent, in order; and when it has received a final payload, it has
received everything. Neither end need be left alone for this: calls may be cancelled, and either channel may
be terminated or lose one of its halves. -/
theorem arrives_as_sent (near : Outgoing.Parties Enc α C D E) (encoding : Encoding (Payload α) Enc τ β)
    (hencoding : encoding.Lawful (Outgoing.rules near).add)
    (hsend : ∀ calls encoder encoder', near.send calls encoder = some (.ok (.ok encoder')) →
      encoding.Flushed encoder encoder')
    (encoder : Enc) (hempty : encoding.pending encoder = []) (fuel : Nat) {out : Outgoing Enc α C D E}
    {outResult : Option (Except (Exit (Error C D E)) Unit)}
    (hout : (Outgoing.new encoder).ioLoop near fuel = (out, outResult)) {sent : Channel α C D E}
    (hsent : Outgoing.Served sent out.calls)
    (far : Parties Dec α C D E) (format : Format β (Payload α))
    {Reads : Dec → List β → List (Payload α) → Prop} (hdecoder : Lawful format far.decode Reads)
    (decoder : Dec) (hfresh : Reads decoder [] []) (fuel' : Nat) {got : Channel α C D E}
    (hgot : Incoming.Served got ((Incoming.new decoder).ioLoop far fuel').1.calls)
    (hnetwork : ∀ calls dec dec', far.recv calls dec = some (.ok (.ok dec')) →
      Fed Reads (encoding.handed (out.calls.flatMap Outgoing.Call.events))
        (calls.filterMap Call.produced) dec dec')
    (hcodec : Writes format (encoding.output (encoding.memory encoder))) :
    got.returned <+: sent.enqueued ∧
      (Sync.Stream.hasFin got.returned = true → got.returned = sent.enqueued) := by
  have hhanded := ((Outgoing.ran_new hout).handed_isPrefix (Outgoing.log_lawful near) hencoding
    (Outgoing.flushed_of_gives hsend) hempty).1.trans (hsent.output_isPrefix encoding _)
  have hread : Incoming.Reading format Reads (encoding.handed (out.calls.flatMap Outgoing.Call.events))
      (Incoming.new decoder : Incoming Dec α D) := Incoming.reading_new hfresh
  have hstopped := hread.ioLoop hdecoder hnetwork fuel'
  have hreturned : got.returned <+: sent.enqueued := by
    apply hgot.returned_isPrefix.trans
    rw [hstopped.forwards]
    exact hstopped.produced.trans (hcodec.isPrefix hhanded)
  exact ⟨hreturned, Sync.Stream.eq_enqueued_of_hasFin hsent.reachable hreturned⟩

/-- Units are payloads themselves. The encoder keeps them until it holds two, and the backend takes whatever
it is lent. -/
def nearEnd (script : List (Payload Nat)) :
    Outgoing.Parties (List (Payload Nat)) Nat Unit Unit Unit where
  encode pending payload := (pending ++ [payload], .ok ())
  shouldFlush pending := 2 ≤ pending.length
  recv calls := script[(calls.filterMap Outgoing.Call.received).length]?.map .ok
  tryRecv calls := .ok script[(calls.filterMap Outgoing.Call.received).length]?
  priorityOnce _ := none
  send _ _ := some (.ok (.ok []))
  codeOf _ := ()
  displayCode _ := "0"
  displayDecoder _ := ""
  displayEncoder _ := ""
  selfName := "Outgoing"
  itemName := "u64"
  build := .release

def nearEncoding : Encoding (Payload Nat) (List (Payload Nat)) Unit (Payload Nat) where
  memory _ := ()
  pending pending := pending
  encode _ payload := ((), [payload])

theorem nearEncoding_output (payloads : List (Payload Nat)) :
    nearEncoding.output () payloads = payloads := by
  induction payloads using List.reverseRecOn with
  | nil => rfl
  | append_singleton payloads payload ih =>
    unfold Encoding.output at ih ⊢
    rw [Encoding.run_append, ih]
    rfl

/-- The decoder is what has arrived and was not decoded yet. All of the stream arrives at once. -/
def farEnd (stream : List (Payload Nat)) : Parties (List (Payload Nat)) Nat Unit Unit Unit where
  decode waiting := (waiting.tail, .ok waiting.head?)
  recv calls _ := if calls = [.recv] then some (.ok (.ok stream)) else none
  sendItem _ _ := some (.ok ())
  codeOf _ := ()
  selfName := "Incoming"
  itemName := "u64"
  build := .release

def plainFormat : Format (Payload Nat) (Payload Nat) where
  parse input := input
  mono h := h

/-- The near end: two payloads are sent and go out in one batch. -/
theorem nearEnd_served : ∃ sent : Channel Nat Unit Unit Unit, Outgoing.Served sent
    ((Outgoing.new []).ioLoop (nearEnd [.item 1, .last 2]) 9).1.calls ∧
    sent.enqueued = [.item 1, .last 2] := by
  have hstep {ch ch' : Channel Nat Unit Unit Unit} {calls} (l : Label Nat Unit Unit Unit)
      (h : Outgoing.Served ch (calls : List (Outgoing.Call (List (Payload Nat)) Nat Unit Unit Unit)))
      (hexec : ch.exec l = some ch') (hresults : ch'.recvResults = ch.recvResults) :
      Outgoing.Served ch' calls := h.step hexec hresults
  have hanswer {ch ch' : Channel Nat Unit Unit Unit} {calls}
      (call : Outgoing.Call (List (Payload Nat)) Nat Unit Unit Unit) {result} (h : Outgoing.Served ch calls)
      (hexec : ch.exec .receiverStep = some ch') (hresults : ch'.recvResults = ch.recvResults ++ [result])
      (hcall : call.answer = some result) : Outgoing.Served ch' (calls ++ [call]) :=
    h.answer hexec hresults hcall
  have hother {ch : Channel Nat Unit Unit Unit} {calls}
      (call : Outgoing.Call (List (Payload Nat)) Nat Unit Unit Unit) (h : Outgoing.Served ch calls)
      (hcall : call.answer = none) : Outgoing.Served ch (calls ++ [call]) := h.other hcall
  have hone := hstep .senderStep (hstep .senderStep (hstep .senderStep
    (hstep (.sendItem (.item 1) 1) (.start 8) rfl rfl) rfl rfl) rfl rfl) rfl rfl
  have htwo := hstep .senderStep (hstep .senderStep (hstep .senderStep
    (hstep (.sendItem (.last 2) 1) hone rfl rfl) rfl rfl) rfl rfl) rfl rfl
  have htaken := hstep .receiverStep (hstep .receiverStep (hstep .receiverStep
    (hstep .recv htwo rfl rfl) rfl rfl) rfl rfl) rfl rfl
  have hfirst := hother (.encode (.item 1) (.ok ()))
    (hanswer (.recv (some (.ok (.item 1)))) htaken rfl rfl rfl) rfl
  have hnext := hstep .receiverStep (hstep .receiverStep (hstep .receiverStep
    (hstep .tryRecv hfirst rfl rfl) rfl rfl) rfl rfl) rfl rfl
  have hsecond := hother (.encode (.last 2) (.ok ()))
    (hanswer (.tryRecv (.ok (some (.last 2)))) hnext rfl rfl rfl) rfl
  exact ⟨_, hother (.send [.item 1, .last 2] (some (.ok (.ok [])))) hsecond rfl, rfl⟩

/-- The far end: both are decoded, and received after the loop has ended. -/
theorem farEnd_served : ∃ got : Channel Nat Unit Unit Unit, Incoming.Served got
    ((Incoming.new []).ioLoop (farEnd [.item 1, .last 2]) 9).1.calls ∧
    got.returned = [.item 1, .last 2] := by
  have hstart : Incoming.Served (Sync.Stream.channel 8 : Channel Nat Unit Unit Unit)
      ([] : List (Call Nat Unit)) := .start 8
  have hother {ch : Channel Nat Unit Unit Unit} {calls : List (Call Nat Unit)} (call : Call Nat Unit)
      (h : Incoming.Served ch calls) (hcall : call.passed = none) :
      Incoming.Served ch (calls ++ [call]) := h.other hcall
  have hsend {ch ch' ch'' : Channel Nat Unit Unit Unit} {calls : List (Call Nat Unit)} (item : Payload Nat)
      (labels : List (Label Nat Unit Unit Unit)) (h : Incoming.Served ch calls)
      (hresults : ch.sendResults = (calls.filterMap Call.passed).map fun _ => none)
      (hexec : ch.exec (.sendItem item 1) = some ch') (hlabels : ∀ l ∈ labels, Incoming.sends l = false)
      (hrun : runAll anyStep Channel.exec ch' labels = some ch'') :
      Incoming.Served ch'' (calls ++ [.sent item]) := (h.send hresults hexec).steps hlabels hrun
  have hone := hsend (.item 1) [.senderStep, .senderStep, .senderStep]
    (hother (.decoded (some (.item 1))) (hother .recv hstart rfl) rfl) rfl rfl (by simp [Incoming.sends]) rfl
  have htwo := hsend (.last 2) [.senderStep, .senderStep, .senderStep, .senderStep]
    (hother (.decoded (some (.last 2))) hone rfl) rfl rfl (by simp [Incoming.sends]) rfl
  have hreceived : ∀ l ∈ ([.recv, .receiverStep, .receiverStep, .receiverStep, .receiverStep,
      .recv, .receiverStep, .receiverStep, .receiverStep, .receiverStep] : List (Label Nat Unit Unit Unit)),
      Incoming.sends l = false := by simp [Incoming.sends]
  exact ⟨_, htwo.steps hreceived rfl, rfl⟩

/-- A number and a last number go all the way. -/
theorem arrives_as_sent_last : ∃ sent got : Channel Nat Unit Unit Unit,
    sent.enqueued = [.item 1, .last 2] ∧ got.returned = sent.enqueued := by
  have hout : (Outgoing.new []).ioLoop (nearEnd [.item 1, .last 2]) 9 =
      (((Outgoing.new []).ioLoop (nearEnd [.item 1, .last 2]) 9).1, some (.ok ())) := by
    rfl
  obtain ⟨sent, hsent, henqueued⟩ := nearEnd_served
  obtain ⟨got, hgot, hreturned⟩ := farEnd_served
  have hdecoder : Lawful plainFormat (farEnd [.item 1, .last 2]).decode
      (fun dec input output => input = output ++ dec) :=
    ⟨fun h => ⟨_, h.symm⟩, fun {dec _ _ _} h hdecode => by cases dec <;> cases hdecode; exact h,
      fun {dec _ _ _ _} h hdecode => by cases dec <;> cases hdecode; simpa using h⟩
  have hnetwork (calls) (dec dec' : List (Payload Nat))
      (h : (farEnd [.item 1, .last 2]).recv calls dec = some (.ok (.ok dec'))) :
      Fed (fun dec input output => input = output ++ dec) [.item 1, .last 2]
        (calls.filterMap Call.produced) dec dec' := by
    simp only [farEnd] at h
    split at h
    · next hcalls =>
      cases h
      exact fun _ => ⟨_, by rw [hcalls]; rfl, List.prefix_rfl⟩
    · cases h
  have hcodec : Writes plainFormat (nearEncoding.output ()) := fun payloads => by
    rw [nearEncoding_output]
    exact List.prefix_rfl
  have harrives := arrives_as_sent (nearEnd [.item 1, .last 2]) nearEncoding
    ⟨fun _ _ => rfl, fun _ _ => rfl⟩ (fun _ _ _ h => by cases h; exact ⟨rfl, rfl⟩) [] rfl 9 hout hsent
    (farEnd [.item 1, .last 2]) plainFormat hdecoder [] rfl 9 hgot hnetwork hcodec
  exact ⟨sent, got, henqueued, harrives.2 (by rw [hreturned]; rfl)⟩

end Aquic.Stream
