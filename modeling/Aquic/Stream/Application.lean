import Aquic.Stream.Outgoing
import Aquic.Sync.Delivery

/-!
# From the application to the backend

The application sends payloads through the channel of a stream; the loop receives them, encodes them and
lends the encoder to the backend. `Served` puts the two together: a run of the channel, in which the
application and the loop take turns in any way, and the log of the loop, in which the answers of `recv` and
`try_recv` are what the calls of the receiver have returned.
-/

namespace Aquic.Stream.Outgoing

open Aquic.Run
open Aquic.Sync.Stream (Channel Payload RecvResult Label)
open Batching

variable {Enc α C D E : Type}

/-- What the channel has returned to the loop. -/
def Call.answer : Call Enc α C D E → Option (RecvResult α C D E)
  | .recv (some (.ok payload)) => some (.ok payload)
  | .recv (some (.error e)) => some (.err e)
  | .tryRecv (.ok (some payload)) => some (.ok payload)
  | .tryRecv (.ok none) => some .empty
  | .tryRecv (.error e) => some (.err e)
  | _ => none

/-- The log of a loop that is served by the channel. -/
inductive Served : Channel α C D E → List (Call Enc α C D E) → Prop
  | start (bound : Nat) : Served (Sync.Stream.channel bound) []
  /-- The application or the loop's call goes on. -/
  | step {ch ch' : Channel α C D E} {calls : List (Call Enc α C D E)} {l : Label α C D E} :
      Served ch calls → ch.exec l = some ch' → ch'.recvResults = ch.recvResults → Served ch' calls
  /-- The loop's call returns. -/
  | answer {ch ch' : Channel α C D E} {calls : List (Call Enc α C D E)} {l : Label α C D E}
      {call : Call Enc α C D E} {result : RecvResult α C D E} : Served ch calls →
      ch.exec l = some ch' → ch'.recvResults = ch.recvResults ++ [result] →
      call.answer = some result → Served ch' (calls ++ [call])
  /-- A call of the loop that is not for the channel. -/
  | other {ch : Channel α C D E} {calls : List (Call Enc α C D E)} {call : Call Enc α C D E} :
      Served ch calls → call.answer = none → Served ch (calls ++ [call])

variable {ch : Channel α C D E} {calls : List (Call Enc α C D E)}

theorem Served.reachable (h : Served ch calls) :
    Reachable Channel.Init anyStep Channel.exec ch := by
  induction h with
  | start bound => exact .init ⟨bound, rfl⟩
  | step _ hexec _ ih => exact ih.step trivial hexec
  | answer _ hexec _ _ ih => exact ih.step trivial hexec
  | other _ _ ih => exact ih

theorem Served.answers (h : Served ch calls) : calls.filterMap Call.answer = ch.recvResults := by
  induction h with
  | start bound => rfl
  | step _ _ hresults ih => rw [ih, hresults]
  | answer _ _ hresults hanswer ih =>
    rw [List.filterMap_append, ih, hresults, List.filterMap_cons, hanswer, List.filterMap_nil]
  | other _ hanswer ih =>
    rw [List.filterMap_append, ih, List.filterMap_cons, hanswer, List.filterMap_nil, List.append_nil]

/-- The payloads in the log are those that the channel has returned. -/
theorem Served.received_eq (h : Served ch calls) : calls.filterMap Call.received = ch.returned := by
  unfold Channel.returned
  rw [← h.answers, List.filterMap_filterMap]
  congr 1
  funext call
  rcases call with (_ | _ | _) | (_ | _ | _) | _ | _ | _ <;> rfl

/-- What was received is the beginning of what was enqueued, and so are its chunks. -/
theorem Served.output_isPrefix (h : Served ch calls) {τ β : Type}
    (encoding : Encoding (Payload α) Enc τ β) (memory : τ) :
    encoding.output memory (calls.filterMap Call.received) <+: encoding.output memory ch.enqueued := by
  rw [h.received_eq]
  exact encoding.output_isPrefix memory (Sync.Stream.returned_isPrefix h.reachable)

/-- **The backend is handed what the application has sent.** At any time it has been handed a prefix of the
chunks of the payloads that were enqueued; and when the loop returns `Ok(())` it has been handed the chunks
of all of them, the final one included. -/
theorem hands_over_what_was_sent (parties : Parties Enc α C D E) {τ β : Type}
    (encoding : Encoding (Payload α) Enc τ β) (hencoding : encoding.Lawful (rules parties).add)
    (hsend : ∀ calls encoder encoder', parties.send calls encoder = some (.ok (.ok encoder')) →
      encoding.Flushed encoder encoder')
    (encoder : Enc) (hempty : encoding.pending encoder = []) (fuel : Nat) {s : Outgoing Enc α C D E}
    {result : Option (Except (Exit (Sync.Stream.Error C D E)) Unit)}
    (hrun : (new encoder).ioLoop parties fuel = (s, result)) (hserved : Served ch s.calls) :
    encoding.handed (s.calls.flatMap Call.events) <+:
        encoding.output (encoding.memory encoder) ch.enqueued ∧
      (result = some (.ok ()) →
        encoding.handed (s.calls.flatMap Call.events) =
          encoding.output (encoding.memory encoder) ch.enqueued ∧
        ∃ payloads last, ch.enqueued = payloads ++ [last] ∧ last.isFin = true ∧
          ∀ payload ∈ payloads, payload.isFin = false) := by
  obtain ⟨hbegins, hdone⟩ := (ran_new hrun).handed_isPrefix (log_lawful parties) hencoding
    (flushed_of_gives hsend) hempty
  refine ⟨hbegins.trans (hserved.output_isPrefix encoding _), fun hok => ?_⟩
  have hreceived : s.calls.filterMap (log parties).received = ch.returned := hserved.received_eq
  rw [hreceived] at hdone
  obtain ⟨hall, payloads, last, hlast, hfin, hothers⟩ := hdone hok
  have hreturned : ch.returned = ch.enqueued := by
    apply Sync.Stream.eq_enqueued_of_hasFin hserved.reachable
      (Sync.Stream.returned_isPrefix hserved.reachable)
    rw [hlast, Sync.Stream.hasFin_append]
    simp [Sync.Stream.hasFin, show last.isFin = true from hfin]
  rw [hreturned] at hall hlast
  exact ⟨hall, payloads, last, hlast, hfin, hothers⟩

/-- The application sends two payloads, the second one after the loop has taken the first. -/
theorem hands_over_what_was_sent_last :
    ∃ ch : Channel Nat Unit Unit Unit, ch.enqueued = [.item 1, .last 3] ∧
      scriptedEncoding.handed
          (((new []).ioLoop (scripted [.item 1, .last 3]) 9).1.calls.flatMap Call.events) =
        scriptedEncoding.output () ch.enqueued := by
  have hrun : (new []).ioLoop (scripted [.item 1, .last 3]) 9 =
      (((new []).ioLoop (scripted [.item 1, .last 3]) 9).1, some (.ok ())) := by
    rfl
  have hstep {ch ch' : Channel Nat Unit Unit Unit} {calls} (l : Label Nat Unit Unit Unit)
      (h : Served ch (calls : List (Call (List Nat) Nat Unit Unit Unit)))
      (hexec : ch.exec l = some ch') (hresults : ch'.recvResults = ch.recvResults) :
      Served ch' calls := h.step hexec hresults
  have hanswer {ch ch' : Channel Nat Unit Unit Unit} {calls} {payload : Payload Nat}
      (call : Call (List Nat) Nat Unit Unit Unit) (h : Served ch calls)
      (hcall : call.answer = some (.ok payload)) (hexec : ch.exec .receiverStep = some ch')
      (hresults : ch'.recvResults = ch.recvResults ++ [.ok payload]) :
      Served ch' (calls ++ [call]) := h.answer hexec hresults hcall
  have hserved : ∃ ch, Served ch ((new []).ioLoop (scripted [.item 1, .last 3]) 9).1.calls ∧
      ch.enqueued = [.item 1, .last 3] := by
    have hsent := hstep .senderStep (hstep .senderStep (hstep .senderStep
      (hstep (.sendItem (.item 1) 1) (.start 8) rfl rfl) rfl rfl) rfl rfl) rfl rfl
    have htaken := hstep .receiverStep (hstep .receiverStep (hstep .receiverStep
      (hstep .recv hsent rfl rfl) rfl rfl) rfl rfl) rfl rfl
    have hfirst := hanswer (.recv (some (.ok (.item 1)))) htaken rfl rfl rfl
    have hencoded : Served _ (_ ++ [.encode (.item 1) (.ok ())]) := .other hfirst rfl
    -- the sender has not recorded the end yet
    have hsent' := hstep .senderStep (hstep .senderStep (hstep .senderStep
      (hstep (.sendItem (.last 3) 1) hencoded rfl rfl) rfl rfl) rfl rfl) rfl rfl
    have htaken' := hstep .receiverStep (hstep .receiverStep (hstep .receiverStep
      (hstep .tryRecv hsent' rfl rfl) rfl rfl) rfl rfl) rfl rfl
    have hsecond := hanswer (.tryRecv (.ok (some (.last 3)))) htaken' rfl rfl rfl
    have hlog : ((new []).ioLoop (scripted [.item 1, .last 3]) 9).1.calls =
        [] ++ [.recv (some (.ok (.item 1)))] ++ [.encode (.item 1) (.ok ())] ++
          [.tryRecv (.ok (some (.last 3)))] ++ [.encode (.last 3) (.ok ())] ++
          [.setPriority ⟨1, false⟩] ++ [.send [1, 3] (some (.ok (.ok [])))] := by
      rfl
    rw [hlog]
    exact ⟨_, .other (.other (.other hsecond rfl) rfl) rfl, rfl⟩
  obtain ⟨ch, hserved, henqueued⟩ := hserved
  have hlast := hands_over_what_was_sent (scripted [.item 1, .last 3]) scriptedEncoding
    ⟨fun _ _ => rfl, fun _ _ => rfl⟩ (fun _ _ _ h => by cases h; exact ⟨rfl, rfl⟩) [] rfl 9 hrun hserved
  exact ⟨ch, henqueued, (hlast.2 rfl).1⟩

end Aquic.Stream.Outgoing
