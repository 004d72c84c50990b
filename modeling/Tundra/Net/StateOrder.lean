import Tundra.Net.HalfClose

set_option autoImplicit false

/- The order of the states in the life of a connection: no step of its loop leads back to
an earlier one. -/
namespace Tundra

/-- Nothing comes behind kDisconnected. -/
theorem StateE.eq_down_of_rank {state : StateE}
    (reached : StateE.kDisconnected.rank ≤ state.rank) : state = .kDisconnected := by
  cases state with
  | kDisconnected => rfl
  | kConnecting | kConnected | kDisconnecting => exact absurd reached (by decide)

namespace HalfClose

open TcpConnection

/-- What all operations but the reads leave of a connection. -/
structure Aside (c d : TcpConnection) : Prop where
  input : d.inputBuffer = c.inputBuffer
  forward : c.state.rank ≤ d.state.rank

section Operations

variable {c d : TcpConnection}

theorem Aside.refl (c : TcpConnection) : Aside c c := ⟨rfl, Nat.le_refl _⟩

theorem Aside.trans {e : TcpConnection} (first : Aside c d) (second : Aside d e) : Aside c e :=
  ⟨second.input.trans first.input, first.forward.trans second.forward⟩

theorem Aside.of_frame (frame : OutputOnly c d) : Aside c d :=
  ⟨congrArg (·.inputBuffer) frame, by rw [frame.state]⟩

theorem shutdownInLoop_aside (c : TcpConnection) : Aside c c.shutdownInLoop := by
  unfold shutdownInLoop
  split
  · exact Aside.refl c
  · exact ⟨rfl, Nat.le_refl _⟩

/-- A connection that is up begins to close. -/
theorem closing_aside (up : c.Up) : Aside c { c with state := .kDisconnecting } := by
  refine ⟨rfl, ?_⟩
  rcases up with up | up
  · rw [up]
    exact Nat.le_succ _
  · rw [up]

theorem shutdown_aside (c : TcpConnection) : Aside c (c.shutdown true).1 := by
  unfold shutdown
  split
  · rename_i connected
    exact (closing_aside (Or.inl connected)).trans (shutdownInLoop_aside _)
  · exact Aside.refl c

theorem forceClose_aside (c : TcpConnection) : Aside c c.forceClose.1 := by
  unfold forceClose
  split
  · rename_i up
    exact closing_aside up
  · exact Aside.refl c

theorem forceCLoseWithDelay_aside (c : TcpConnection) : Aside c c.forceCLoseWithDelay.1 := by
  unfold forceCLoseWithDelay
  split
  · rename_i up
    exact closing_aside up
  · exact Aside.refl c

theorem startReadInLoop_aside (c : TcpConnection) : Aside c c.startReadInLoop.1 := by
  unfold startReadInLoop
  split
  · exact ⟨rfl, Nat.le_refl _⟩
  · exact Aside.refl c

theorem stopReadInLoop_aside (c : TcpConnection) : Aside c c.stopReadInLoop.1 := by
  unfold stopReadInLoop
  split
  · exact ⟨rfl, Nat.le_refl _⟩
  · exact Aside.refl c

theorem connectEstablished_aside {r : Outcome} (done : c.connectEstablished = some r) :
    Aside c r.1 := by
  unfold connectEstablished at done
  split at done
  · rename_i connecting
    cases done
    refine ⟨rfl, ?_⟩
    rw [connecting]
    exact Nat.zero_le _
  · cases done

theorem takeDown_aside (c : TcpConnection) : Aside c c.takeDown.1 :=
  ⟨rfl, c.state.rank_le_down⟩

theorem handleClose_aside {r : Outcome} (done : c.handleClose = some r) : Aside c r.1 := by
  unfold handleClose at done
  split at done
  · cases done
    exact takeDown_aside c
  · cases done

theorem forceCLoseInLoop_aside {r : Outcome} (done : c.forceCLoseInLoop = some r) :
    Aside c r.1 := by
  unfold forceCLoseInLoop at done
  split at done
  · exact handleClose_aside done
  · cases done
    exact Aside.refl c

theorem removeChannel_aside {r : Outcome} (done : c.removeChannel = some r) : Aside c r.1 := by
  obtain ⟨channel, _, rfl⟩ := Option.map_eq_some_iff.mp done
  exact ⟨rfl, Nat.le_refl _⟩

end Operations

section Steps

variable {s t : State}

theorem connectDestroyed_aside (done : s.connectDestroyed = some t) : Aside s.conn t.conn := by
  obtain ⟨r, removed, rfl⟩ := Option.map_eq_some_iff.mp done
  rw [took_conn]
  split at removed
  · have first := takeDown_aside s.conn
    rw [took_conn] at removed
    exact first.trans (removeChannel_aside removed)
  · exact removeChannel_aside removed

theorem run_aside {mem : Memory} {behind : Nat → UInt8} {answer : WriteResult} {f : Functor}
    (done : s.run mem behind answer f = some t) : Aside s.conn t.conn := by
  cases f with
  | writeCompleteCallback | highWaterMarkCallback =>
      cases done
      exact Aside.refl _
  | sendInLoop bound =>
      obtain ⟨r, sent, calm, _⟩ := runSend_calm s.conn mem behind answer bound
      rw [State.run, sent, Option.map_some] at done
      cases done
      rw [took_conn]
      exact Aside.of_frame calm.frame
  | shutdownInLoop =>
      cases done
      exact shutdownInLoop_aside s.conn
  | forceCLoseInLoop =>
      obtain ⟨r, closed, rfl⟩ := Option.map_eq_some_iff.mp done
      rw [closing_conn]
      exact forceCLoseInLoop_aside closed
  | connectDestroyed => exact connectDestroyed_aside done

/-- Only a read and the user's own use of the input buffer change it, and no step leads
back to an earlier state. -/
theorem next_aside {label : Label} (noRead : ∀ input, label ≠ .handleRead input)
    (noTake : ∀ left, label ≠ .retrieve left) (moved : next s label = some t) :
    Aside s.conn t.conn := by
  cases label with
  | connectEstablished =>
      obtain ⟨r, done, rfl⟩ := Option.map_eq_some_iff.mp moved
      rw [took_conn]
      exact connectEstablished_aside done
  | send mem behind arg answer =>
      obtain ⟨r, left, done, calm, _⟩ := sendArg_calm s.conn mem behind answer arg
      rw [next, done, Option.map_some] at moved
      cases moved
      rw [took_conn]
      exact Aside.of_frame calm.frame
  | shutdown =>
      cases moved
      rw [took_conn]
      exact shutdown_aside s.conn
  | forceClose =>
      cases moved
      rw [took_conn]
      exact forceClose_aside s.conn
  | forceCLoseWithDelay =>
      cases moved
      rw [took_conn]
      exact forceCLoseWithDelay_aside s.conn
  | startRead =>
      cases moved
      rw [took_conn]
      exact startReadInLoop_aside s.conn
  | stopRead =>
      cases moved
      rw [took_conn]
      exact stopReadInLoop_aside s.conn
  | retrieve left => exact absurd rfl (noTake left)
  | handleRead input => exact absurd rfl (noRead input)
  | handleWrite answer =>
      obtain ⟨r, done, calm⟩ := handleWrite_calm s.conn answer
      rw [next, done, Option.map_some] at moved
      cases moved
      rw [took_conn]
      exact Aside.of_frame calm.frame
  | handleClose =>
      obtain ⟨r, done, rfl⟩ := Option.map_eq_some_iff.mp moved
      rw [closing_conn]
      exact handleClose_aside done
  | runFunctor mem behind answer =>
      dsimp only [next] at moved
      split at moved
      · cases moved
        exact Aside.refl _
      · have ran := run_aside moved
        exact ran
  | fireTimer locked =>
      cases moved
      cases locked with
      | false => exact Aside.refl _
      | true =>
          rw [if_pos rfl, took_conn]
          exact forceClose_aside s.conn
  | connectDestroyed => exact connectDestroyed_aside moved

/-- A read leaves the state, or closes the connection. -/
theorem handleRead_forward {c : TcpConnection} {input : Option Bytes} {r : Outcome}
    (done : c.handleRead input = some r) : c.state.rank ≤ r.1.state.rank := by
  obtain ⟨read, _, rest⟩ := Option.bind_eq_some_iff.mp done
  split at rest
  · exact (handleClose_aside rest).forward
  · cases rest
    exact Nat.le_refl _

/-- No step leads a connection back to an earlier state. -/
theorem next_forward {label : Label} (moved : next s label = some t) :
    s.conn.state.rank ≤ t.conn.state.rank := by
  by_cases reads : ∃ input, label = .handleRead input
  · obtain ⟨input, rfl⟩ := reads
    obtain ⟨r, done, rfl⟩ := Option.map_eq_some_iff.mp moved
    rw [closing_conn]
    exact handleRead_forward done
  by_cases takes : ∃ left, label = .retrieve left
  · obtain ⟨left, rfl⟩ := takes
    cases moved
    rw [took_conn]
  · refine (next_aside ?_ ?_ moved).forward
    · exact fun input read => reads ⟨input, read⟩
    · exact fun left taken => takes ⟨left, taken⟩

end Steps

end HalfClose

end Tundra
