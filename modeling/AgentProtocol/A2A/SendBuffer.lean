-- SUMMARY: Sending on a TCP socket: what the kernel took, followed by what is buffered and unsent, is the data of the accepted sends in order.
import AgentProtocol.Lib.Run

/-!
# The output buffer of a socket

`Send` hands its data to the kernel if nothing is queued, and otherwise appends it to a buffer that `HandleWritable`
drains. What every `send()` of the kernel comes to is part of an event. A drain that has not seen its last result yet
is given the results so far.
-/

namespace AgentProtocol.A2A.Net

open Lib

variable {β : Type}

/-- What a `send()` comes to. The kernel takes no more than it is given. -/
inductive SendResult where
  | took (n : ℕ)
  | again
  | interrupted
  | fatal
  deriving DecidableEq, Repr

/-- The fields of `TcpSocket` about sending, and the bytes that the kernel took. -/
structure TcpSocket (β : Type) where
  connected : Bool := true
  fd : Option ℕ
  outBuf : List β := []
  outBufSent : ℕ := 0
  outBufSize : ℕ := 0
  /-- Whether there is a write event, `evWriteId_ != 0`. -/
  evWrite : Bool := false
  taken : List β := []
  deriving DecidableEq, Repr

namespace TcpSocket

def enableWrite (s : TcpSocket β) : TcpSocket β := if s.fd.isNone || s.evWrite then s else { s with evWrite := true }

def disableWrite (s : TcpSocket β) : TcpSocket β := { s with evWrite := false }

def close (s : TcpSocket β) : TcpSocket β :=
  match s.fd with
  | none => { s with connected := false }
  | some _ => { s with connected := false, fd := none, evWrite := false }

/-- What is not sent is all that is queued. -/
def queue (s : TcpSocket β) (data : List β) : TcpSocket β :=
  { s with outBuf := data, outBufSent := 0, outBufSize := data.length }.enableWrite

/-- `Send`, where an immediate `send()` comes to `r`. -/
def send (s : TcpSocket β) (data : List β) (r : SendResult) : TcpSocket β × Bool :=
  if !s.connected then (s, false)
  else if data.length = 0 then (s, true)
  else if s.outBufSize = 0 then
    match r with
    | .took n =>
      let sent := min n data.length
      let s := { s with taken := s.taken ++ data.take sent }
      if sent = data.length then (s, true) else (s.queue (data.drop sent), true)
    | .fatal => (s.close, false)
    | .again | .interrupted => (s.queue data, true)
  else
    let s := { s with outBuf := s.outBuf ++ data }
    ({ s with outBufSize := s.outBuf.length - s.outBufSent }.enableWrite, true)

/-- The loop of `HandleWritable`, as far as there are results of `send()`. -/
def drain : List SendResult → TcpSocket β → TcpSocket β
  | [], s => s
  | r :: rs, s =>
    if 0 < s.outBufSize then
      match r with
      | .took n =>
        let unsent := s.outBuf.drop s.outBufSent
        let sent := min n (s.outBuf.length - s.outBufSent)
        if 0 < sent then
          let s := { s with taken := s.taken ++ unsent.take sent, outBufSent := s.outBufSent + sent }
          let s := { s with outBufSize := s.outBuf.length - s.outBufSent }
          if s.outBufSize = 0 then { s with outBuf := [], outBufSent := 0 }.disableWrite else drain rs s
        else s
      | .again => s
      | .interrupted => drain rs s
      | .fatal => s.close
    else s

def handleWritable (s : TcpSocket β) (results : List SendResult) : TcpSocket β :=
  if !s.connected then s else drain results s

end TcpSocket

inductive SocketEvent (β : Type) where
  | send (data : List β) (r : SendResult)
  | handleWritable (results : List SendResult)

def SocketEvent.results : SocketEvent β → List SendResult
  | .send _ r => [r]
  | .handleWritable results => results

/-- A socket in use, and the data of all sends that returned true. -/
structure Sending (β : Type) where
  socket : TcpSocket β
  accepted : List β := []

def Sending.step (w : Sending β) : SocketEvent β → Sending β
  | .send data r =>
    let (socket, ok) := w.socket.send data r
    { socket, accepted := if ok then w.accepted ++ data else w.accepted }
  | .handleWritable results => { w with socket := w.socket.handleWritable results }

/-- The socket is open, nothing is lost, repeated or out of order, and there is a write event while bytes are unsent. -/
structure TcpSocket.InOrder (s : TcpSocket β) (accepted : List β) : Prop where
  connected : s.connected = true
  fd : s.fd.isSome = true
  bytes : s.taken ++ s.outBuf.drop s.outBufSent = accepted
  size : s.outBufSize = s.outBuf.length - s.outBufSent
  sent_le : s.outBufSent ≤ s.outBuf.length
  notified : s.outBuf.drop s.outBufSent ≠ [] → s.evWrite = true

namespace TcpSocket

variable {s : TcpSocket β} {accepted data : List β}

theorem enableWrite_eq (h : s.fd.isSome = true) : s.enableWrite = { s with evWrite := true } := by
  obtain ⟨connected, fd, outBuf, sent, size, evWrite, taken⟩ := s
  cases fd <;> cases evWrite <;> simp_all [enableWrite]

theorem inOrder_queue (hconnected : s.connected = true) (hfd : s.fd.isSome = true) (hbytes : s.taken ++ data = accepted) :
    (s.queue data).InOrder accepted := by
  rw [queue, enableWrite_eq (by exact hfd)]
  exact ⟨hconnected, hfd, hbytes, rfl, Nat.zero_le _, fun _ => rfl⟩

theorem inOrder_send (h : s.InOrder accepted) (data : List β) {r : SendResult} (hr : r ≠ .fatal) :
    (s.send data r).2 = true ∧ (s.send data r).1.InOrder (accepted ++ data) := by
  unfold send
  rw [if_neg (by simp [h.connected])]
  split
  · rename_i hlen
    rw [List.length_eq_zero_iff.mp hlen, List.append_nil]
    exact ⟨rfl, h⟩
  · split
    · -- nothing is queued, so the kernel has all that was accepted
      rename_i hsize
      have hnil : s.outBuf.drop s.outBufSent = [] := List.drop_eq_nil_of_le (Nat.sub_eq_zero_iff_le.mp (h.size ▸ hsize))
      have htaken : s.taken = accepted := by simpa [hnil] using h.bytes
      cases r with
      | took n =>
        dsimp only
        split
        · rename_i hall
          refine ⟨rfl, h.connected, h.fd, ?_, h.size, h.sent_le, h.notified⟩
          simp [hnil, hall, htaken]
        · refine ⟨rfl, inOrder_queue h.connected h.fd ?_⟩
          simp only [List.append_assoc, List.take_append_drop, htaken]
      | again | interrupted => exact ⟨rfl, inOrder_queue h.connected h.fd (by rw [htaken])⟩
      | fatal => exact absurd rfl hr
    · -- the data goes behind what is unsent
      dsimp only
      rw [enableWrite_eq (by exact h.fd)]
      refine ⟨rfl, h.connected, h.fd, ?_, rfl, h.sent_le.trans (by simp), fun _ => rfl⟩
      simp only [List.drop_append_of_le_length h.sent_le, ← List.append_assoc, h.bytes]

theorem inOrder_drain (results : List SendResult) (h : s.InOrder accepted) (hfatal : .fatal ∉ results) :
    (drain results s).InOrder accepted := by
  induction results generalizing s with
  | nil => exact h
  | cons r rs ih =>
    have hrest : .fatal ∉ rs := fun hmem => hfatal (List.mem_cons_of_mem _ hmem)
    unfold drain
    split
    · cases r with
      | took n =>
        dsimp only
        split
        · have hbytes : (s.taken ++ (s.outBuf.drop s.outBufSent).take (min n (s.outBuf.length - s.outBufSent))) ++
              s.outBuf.drop (s.outBufSent + min n (s.outBuf.length - s.outBufSent)) = accepted := by
            rw [← List.drop_drop, List.append_assoc, List.take_append_drop, h.bytes]
          have hle := Nat.min_le_right n (s.outBuf.length - s.outBufSent)
          split
          · rename_i hnone
            rw [List.drop_eq_nil_of_le (Nat.sub_eq_zero_iff_le.mp hnone)] at hbytes
            exact ⟨h.connected, h.fd, hbytes, hnone, Nat.le_refl _, fun hne => absurd rfl hne⟩
          · refine ih ⟨h.connected, h.fd, hbytes, rfl, Nat.add_le_of_le_sub' h.sent_le hle, fun hne => h.notified ?_⟩ hrest
            intro hnil
            exact hne (by rw [← List.drop_drop, hnil, List.drop_nil])
        · exact h
      | again => exact h
      | interrupted => exact ih h hrest
      | fatal => exact absurd List.mem_cons_self hfatal
    · exact h

end TcpSocket

/-- At every moment before a fatal error all sends are in order. -/
theorem sends_in_order (fd : ℕ) (es : List (SocketEvent β)) (hfatal : ∀ e ∈ es, .fatal ∉ e.results) :
    (run Sending.step { socket := { fd := some fd } } es).socket.InOrder (run Sending.step { socket := { fd := some fd } } es).accepted := by
  refine (along_of_forall hfatal).invariant (I := fun w : Sending β => w.socket.InOrder w.accepted) ?_ ?_
  · exact ⟨rfl, rfl, rfl, rfl, Nat.le_refl _, fun hne => absurd rfl hne⟩
  · intro w e h he
    cases e with
    | send data r =>
      obtain ⟨hok, hsent⟩ := TcpSocket.inOrder_send (r := r) h data fun heq => he (heq ▸ List.mem_singleton_self _)
      simpa only [Sending.step, hok, if_true] using hsent
    | handleWritable results =>
      rw [Sending.step, TcpSocket.handleWritable, if_neg (by simp [h.connected])]
      exact TcpSocket.inOrder_drain results h he

theorem sends_in_order_sample :
    (run Sending.step { socket := { fd := some 5 } } [.send [1, 2, 3] (.took 1), .send [4] .again, .handleWritable [.took 2, .again]]).socket.InOrder
      (run Sending.step { socket := { fd := some 5 } } [.send [1, 2, 3] (.took 1), .send [4] .again, .handleWritable [.took 2, .again]]).accepted :=
  sends_in_order 5 [.send [1, 2, 3] (.took 1), .send [4] .again, .handleWritable [.took 2, .again]] (by simp [SocketEvent.results])

end AgentProtocol.A2A.Net
