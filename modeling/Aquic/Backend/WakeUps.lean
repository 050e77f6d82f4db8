import Aquic.Backend.Quiche.Send
import Aquic.Backend.Quinn.Send

/-!
# Lost wake-ups

Both backends keep the connections that wait to be polled in a queue, and serve it in `send`. A closed
connection at the front is forgotten, which takes its key from the queue, and then the front of the
queue is popped all the same: the connection behind a closed one is neither polled nor marked any
longer.
-/

namespace Aquic.Backend

open Aquic.Cid Aquic.Collections

/-- **Exactly when no wake-up is lost**, in either backend: no closed connection in the queue is
followed directly by another connection, as far as the loop gets. -/
theorem wake_ups_kept_iff {Conn Cfg G T Conn' : Type} (env : Quiche.Env Conn Cfg G T)
    (lib : Quinn.Library Conn') :
    (∀ (b b' : Quiche.QuicheBackend Conn Cfg G T) (out out' : List Quiche.Message),
      b.send env out = some (b', out') →
        ((b.handleScheduledEvents env).NoLostWakeUp b' ↔
          ¬ (b.handleScheduledEvents env).StrandsActive env out)) ∧
    ∀ (b b' : Quinn.QuinnBackend Conn') (out out' : List Quinn.Message),
      b.send lib out = some (b', out') →
        ((b.handleScheduledEvents lib).NoLostWakeUp b' ↔
          ¬ (b.handleScheduledEvents lib).StrandsActive lib out) :=
  ⟨fun _ _ _ _ h => Quiche.QuicheBackend.noLostWakeUp_iff env h,
    fun _ _ _ _ h => Quinn.QuinnBackend.noLostWakeUp_iff lib h⟩

/-! ## Two queues -/

namespace Quiche.QuicheBackend

/-- A server with idle connections; the flags say which of them are closed. -/
def idleQueue (closed : List Bool) :
    Option (QuicheBackend IdleConnection Unit RandomIdGenerator Unit) :=
  (idleServer 1 strictFirewall).bind fun b =>
    closed.foldlM (fun b closed =>
      (b.registerNewConnection idleEnv (.new idleLibrary { scid := [0], closed } true)
        peerAddr).map Prod.fst) b

end Quiche.QuicheBackend

namespace Quinn

/-- A backend with two active connections and one buffer. -/
def QuinnBackend.idleQueue (drained drained' : Bool) : QuinnBackend Bool where
  connections :=
    { all := ⟨[some ⟨drained, none, 0, false, 0⟩, some ⟨drained', none, 1, false, 0⟩]⟩
      active := ⟨[0, 1], by decide⟩
      versionSequence := 2 }
  io := { primaryBuffers := [1500], listenAddr := .localhost }
  time := .new .zero
  events := []
  calls := []

end Quinn

open Quiche.QuicheBackend (idleEnv)

/-- Behind an open connection nothing is lost. -/
theorem wake_ups_kept_behind_open :
    (∃ b b' out', Quiche.QuicheBackend.idleQueue [false, true] = some b ∧
      b.send idleEnv [] = some (b', out') ∧ (b.handleScheduledEvents idleEnv).NoLostWakeUp b') ∧
    ∃ b b' out', b = Quinn.QuinnBackend.idleQueue false true ∧
      b.send Quinn.idleLibrary [] = some (b', out') ∧
      (b.handleScheduledEvents Quinn.idleLibrary).NoLostWakeUp b' := by
  have kept := wake_ups_kept_iff idleEnv Quinn.idleLibrary
  constructor
  · have hrun : (Quiche.QuicheBackend.idleQueue [false, true]).any (fun b =>
        (b.send idleEnv []).isSome &&
        (b.handleScheduledEvents idleEnv).connections.active.toList.dropLast.all fun key =>
          !((b.handleScheduledEvents idleEnv).connections.get key).any
            (idleEnv.quiche.isClosed ·.inner)) = true := by
      decide +kernel
    obtain ⟨b, hb, hrun⟩ := (Option.any_eq_true ..).mp hrun
    obtain ⟨hsend, hopen⟩ := Bool.and_eq_true_iff.mp hrun
    obtain ⟨⟨b', out'⟩, hsend⟩ := Option.isSome_iff_exists.mp hsend
    refine ⟨b, b', out', hb, hsend, (kept.1 b b' [] out' hsend).mpr ?_⟩
    exact Quiche.QuicheBackend.not_strandsActive_of_open idleEnv (by simpa using hopen)
  · have hrun : ((Quinn.QuinnBackend.idleQueue false true).send Quinn.idleLibrary []).isSome := by
      decide +kernel
    obtain ⟨⟨b', out'⟩, hsend⟩ := Option.isSome_iff_exists.mp hrun
    refine ⟨_, b', out', rfl, hsend, (kept.2 _ b' [] out' hsend).mpr ?_⟩
    exact Quinn.QuinnBackend.not_strandsActive_of_open Quinn.idleLibrary (by decide +kernel)

/-- Behind a closed one the mark is lost, in both backends. -/
theorem wake_up_lost_behind_closed :
    (∃ b b' out', Quiche.QuicheBackend.idleQueue [true, false] = some b ∧
      b.send idleEnv [] = some (b', out') ∧ ¬ (b.handleScheduledEvents idleEnv).NoLostWakeUp b') ∧
    ∃ b b' out', b = Quinn.QuinnBackend.idleQueue true false ∧
      b.send Quinn.idleLibrary [] = some (b', out') ∧
      ¬ (b.handleScheduledEvents Quinn.idleLibrary).NoLostWakeUp b' := by
  constructor
  · have hrun : (Quiche.QuicheBackend.idleQueue [true, false]).any (fun b =>
        (b.send idleEnv []).any fun (b', _) => decide (
          1 ∈ (b.handleScheduledEvents idleEnv).connections.active.toList ∧
          ((b.handleScheduledEvents idleEnv).connections.get 1).isSome ∧
          1 ∉ b'.connections.active.toList ∧ b'.calls = [.forget 0])) = true := by
      decide +kernel
    obtain ⟨b, hb, hrun⟩ := (Option.any_eq_true ..).mp hrun
    obtain ⟨⟨b', out'⟩, hsend, hlost⟩ := (Option.any_eq_true ..).mp hrun
    obtain ⟨hactive, hlive, hgone, hcalls⟩ := of_decide_eq_true hlost
    refine ⟨b, b', out', hb, hsend, fun hkept => ?_⟩
    simpa [hgone, hcalls] using hkept 1 hactive hlive
  · have hrun : ((Quinn.QuinnBackend.idleQueue true false).send Quinn.idleLibrary []).any
        (fun (b', _) => decide (1 ∉ b'.connections.active.toList ∧ b'.calls = [.forget 0])) =
        true := by
      decide +kernel
    obtain ⟨⟨b', out'⟩, hsend, hlost⟩ := (Option.any_eq_true ..).mp hrun
    obtain ⟨hgone, hcalls⟩ := of_decide_eq_true hlost
    refine ⟨_, b', out', rfl, hsend, fun hkept => ?_⟩
    simpa [hgone, hcalls] using hkept 1 (by decide +kernel) (by decide +kernel)

end Aquic.Backend
