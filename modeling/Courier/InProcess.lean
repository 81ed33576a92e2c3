import Courier.SendOutput
import Courier.ReceiveInvariant

/-
  Courier: the in-process harness of `test_integration_inproc_send_receive.py`.

  The two engines, each with its own store, and the two queues of `Link`, whose
  `network_send` always returns True. `start` is `send_file`; a round is `_drive_once`, every
  queued DATA handed to `handle_data` and then every queued SACK and DELIVERED handed to the
  sender, in order, followed by a tick (`check_timeouts`, then `retransmit_chunks` of the
  bundle). The messages cross as dictionaries, so a SACK carries no `acked_chunks`:
  `make_sack_msg` leaves it to the codec, and `handle_sack` then reads an empty set.

  Hence the window never moves (`Frozen`), and a file with more chunks than the window is never
  delivered, nor is the sender ever completed (`rounds_stall`); nor is the empty file, which
  sends nothing at all.
-/

namespace Courier

/-- The harness: both engines and the two queues. -/
structure InProcess where
  sender : SendEngine
  receiver : ReceiveEngine
  toReceiver : List Message := []
  toSender : List Message := []

namespace InProcess

variable (cfg : TransferConfig) (fec : FECConfig) (srcNodeId nodeId outputDir srcAddr : String)
  (bundleId : String) (ackNonce : Nat)

/-- The receiver's loop of `_drive_once`: every DATA to `handle_data`, the write succeeding. -/
def feedReceiver (r : ReceiveEngine) : List Message → ReceiveEngine × List Message
  | [] => (r, [])
  | .data m :: ms =>
    let d := ReceiveEngine.handleData cfg fec nodeId outputDir r m srcAddr true ackNonce
    let rest := feedReceiver d.1 ms
    (rest.1, d.2 ++ rest.2)
  | _ :: ms => feedReceiver r ms

/-- The sender's loop of `_drive_once`: SACKs to `handle_sack`, DELIVERED to
    `handle_delivered`, with the clock at `now`. -/
def feedSender (e : SendEngine) (now : ℚ) : List Message → SendEngine × List Message
  | [] => (e, [])
  | .sack m :: ms =>
    let d := SendEngine.handleSack cfg e m.bundleId m.ackedSet now now fun _ => true
    let rest := feedSender d.1 now ms
    (rest.1, d.2 ++ rest.2)
  | .delivered m :: ms => feedSender (SendEngine.handleDelivered e m.bundleId) now ms
  | _ :: ms => feedSender e now ms

/-- One round: `_drive_once` with the sender's clock at `now`, then a tick at `tick`. -/
def drive (s : InProcess) (now tick : ℚ) : InProcess :=
  let r := feedReceiver cfg fec nodeId outputDir srcAddr ackNonce s.receiver s.toReceiver
  let e := feedSender cfg s.sender now (s.toSender ++ r.2)
  let t := SendEngine.retransmitChunks (SendEngine.checkTimeouts cfg e.1 tick) bundleId tick
    fun _ => true
  ⟨t.1, r.1, e.2 ++ t.2, []⟩

/-- `send_file` of `fileData` as `bundleId` from two fresh engines. -/
def start (fileData : Bytes) (fecEnabled : Bool) (now : ℚ) : InProcess :=
  let r := (SendEngine.sendFile cfg fec srcNodeId {} "send_file.bin" fileData nodeId fecEnabled
    bundleId now fun _ => true).getD ({}, [])
  ⟨r.1, {}, r.2, []⟩

/-- Rounds with the clocks `(now, tick)` of each. -/
def rounds (s : InProcess) (clocks : List (ℚ × ℚ)) : InProcess :=
  clocks.foldl (fun s c => drive cfg fec nodeId outputDir srcAddr bundleId ackNonce s c.1 c.2) s

/-! ## What crosses the queues -/

/-- A DATA message of `N` chunks with an id below `W`. -/
def Small (N W : Nat) (m : Message) : Prop :=
  ∃ dm, m = .data dm ∧ dm.chunkId < W ∧ dm.totalChunks = N

/-- A SACK in which `handle_sack` finds no acked chunk. -/
def AcksNothing (m : Message) : Prop :=
  ∃ sm, m = .sack sm ∧ sm.ackedSet = ∅

theorem acksNothing_makeSackMsg (x : String) (l : List Nat) : AcksNothing (makeSackMsg x l) :=
  ⟨_, rfl, rfl⟩

/-! ## The sender: a window that never moves -/

/-- Every sender state has nothing acked, the window `[0, W)` of `N` chunks, and is not
    completed; bundle `b` has one. -/
structure Frozen (N W : Nat) (b : String) (e : SendEngine) : Prop where
  tidy : SendEngine.Tidy e
  isSome : (e.activeSends.get? b).isSome
  states : ∀ x st, e.activeSends.get? x = some st → st.ackedChunks = ∅ ∧ st.windowStart = 0 ∧
    st.windowEnd = W ∧ st.totalChunks = N ∧ st.completed = false

section Sender

open SendEngine

variable {N W : Nat} {b : String}

theorem Frozen.of_calm {e e' : SendEngine} (hb : (e.activeSends.get? b).isSome)
    (hs : ∀ x st, e.activeSends.get? x = some st → st.ackedChunks = ∅ ∧ st.windowStart = 0 ∧
      st.windowEnd = W ∧ st.totalChunks = N ∧ st.completed = false)
    (hc : Calm e e') (ht : Tidy e') : Frozen N W b e' :=
  ⟨ht, hc.isSome b hb, fun x st' hx => by
    obtain ⟨st, hst, hk, hcomp⟩ := hc.states x st' hx
    obtain ⟨h1, h2, h3, h4, h5⟩ := hs x st hst
    exact ⟨hk.acked.trans h1, hk.windowStart.trans h2, hk.windowEnd.trans h3,
      hk.totalChunks.trans h4, hcomp.trans h5⟩⟩

theorem Frozen.calm {e e' : SendEngine} (h : Frozen N W b e) (hc : Calm e e') (ht : Tidy e') :
    Frozen N W b e' :=
  Frozen.of_calm h.isSome h.states hc ht

theorem Frozen.small {e : SendEngine} (h : Frozen N W b e) {m : Message}
    (hm : SendEngine.SentBy e m) : Small N W m := by
  obtain ⟨x, st, dm, hx, rfl, -, hc, ht⟩ := hm
  obtain ⟨-, -, hW, hN, -⟩ := h.states x st hx
  exact ⟨dm, rfl, hW ▸ hc, hN ▸ ht⟩

theorem advanceWindowStart_empty (total start : Nat) : advanceWindowStart ∅ total start = start := by
  unfold advanceWindowStart
  cases total - start <;> simp [advanceWindowStart.loop]

/-- A SACK that acks nothing new leaves a state with nothing acked where it was. -/
theorem keepsWindow_sackState_empty {st : SendState} (h : SendEngine.TidyState st)
    (hacked : st.ackedChunks = ∅) (now : ℚ) :
    KeepsWindow st (SendEngine.sackState cfg now st ∅) := by
  obtain ⟨s1, s2, s3, s4, s5, s6⟩ := sackState_spec cfg now st ∅
  refine ⟨by rw [s1, Finset.union_empty], ?_, ?_, s3, s2, fun c _ hc => by simp [s6, hc]⟩
  · rw [s4, hacked, Finset.union_empty, advanceWindowStart_empty]
  · rw [s5, s4, hacked, Finset.union_empty, advanceWindowStart_empty, h.windowEnd_eq]

/-- `handle_sack` of a SACK that acks nothing, on a state of at least one chunk with nothing
    acked: it stores the updated state, neither completes nor sends. -/
theorem Frozen.handleSack {e : SendEngine} (h : Frozen N W b e) (hN : 0 < N) (x : String)
    (now nowSend : ℚ) (ok : Nat → Bool) :
    Frozen N W b (SendEngine.handleSack cfg e x ∅ now nowSend ok).1 ∧
      (SendEngine.handleSack cfg e x ∅ now nowSend ok).2 = [] := by
  cases hget : e.activeSends.get? x with
  | none => simp only [SendEngine.handleSack, hget, and_true]; exact h
  | some st =>
    obtain ⟨hacked, -, -, htot, -⟩ := h.states x st hget
    have t := h.tidy.states x st hget
    have hk := keepsWindow_sackState_empty cfg t hacked now
    have hcard : ¬ (SendEngine.sackState cfg now st ∅).ackedChunks.card ≥
        (SendEngine.sackState cfg now st ∅).totalChunks := by
      rw [hk.acked, hk.totalChunks, hacked, htot, Finset.card_empty]; omega
    simp only [SendEngine.handleSack, hget, if_neg hcard, hk.windowEnd, gt_iff_lt, lt_irrefl,
      if_false, and_true]
    exact h.calm (calm_insert hget hk (sackState_queue cfg now st ∅).2 rfl)
      (h.tidy.insert (t.sackState cfg now ∅))

theorem feedSender_frozen (hN : 0 < N) (now : ℚ) {ms : List Message}
    (hms : ∀ m ∈ ms, AcksNothing m) {e : SendEngine} (h : Frozen N W b e) :
    Frozen N W b (feedSender cfg e now ms).1 ∧ (feedSender cfg e now ms).2 = [] := by
  induction ms generalizing e with
  | nil => exact ⟨h, rfl⟩
  | cons m ms ih =>
    obtain ⟨sm, rfl, hsm⟩ := hms m (List.mem_cons_self m ms)
    have hs := h.handleSack cfg hN sm.bundleId now now fun _ => true
    have hr := ih (fun m hm => hms m (List.mem_cons_of_mem _ hm)) hs.1
    simp only [feedSender, hsm]
    exact ⟨hr.1, by rw [hs.2, hr.2]; rfl⟩

/-- A tick re-arms and resends within the window only. -/
theorem Frozen.tick {e : SendEngine} (h : Frozen N W b e) (tick : ℚ) (ok : Nat → Bool) :
    Frozen N W b (SendEngine.retransmitChunks (SendEngine.checkTimeouts cfg e tick) b tick ok).1 ∧
      ∀ m ∈ (SendEngine.retransmitChunks (SendEngine.checkTimeouts cfg e tick) b tick ok).2,
        Small N W m := by
  have h₁ := h.calm (SendEngine.calm_checkTimeouts cfg e tick) (h.tidy.checkTimeouts cfg tick)
  have t := h₁.tidy.retransmitChunks b tick ok
  have h₂ := h₁.calm (SendEngine.calm_retransmitChunks _ b tick ok) t.1
  exact ⟨h₂, fun m hm => h₂.small (t.2 m hm)⟩

end Sender

/-! ## The receiver: a file that is never complete -/

/-- Every receive state holds `RecvInv N W` and is not delivered, and no file is written. -/
structure Undelivered (N W : Nat) (r : ReceiveEngine) : Prop where
  files : r.files = ∅
  states : ∀ x rs, r.activeReceives.get? x = some rs →
    ReceiveEngine.RecvInv N W x rs ∧ rs.delivered = false

section Receiver

variable {N W : Nat}

/-- With ids below `W < N` and no FEC, a state never holds every data chunk. -/
theorem not_all_data {x : String} {rs : ReceiveState} (h : ReceiveEngine.RecvInv N W x rs)
    (hW : W < N) : ¬ ∀ c < rs.numData, (rs.dataChunks.get? c).isSome := by
  intro hall
  have hfec : rs.fecEnabled = false := by
    cases hf : rs.fecEnabled
    · rfl
    · exact absurd (h.fec hf).1 (by omega)
  have hnum : rs.numData = N := by
    rw [ReceiveState.numData, h.numData hfec, h.totalChunks]; simp
  exact absurd (h.received W (h.data W (hall W (by omega)))) (lt_irrefl W)

theorem Undelivered.handleData {r : ReceiveEngine} (h : Undelivered N W r) (hW : W < N)
    (hfec : fec.enabled = false) {msg : DataMsg} (hc : msg.chunkId < W)
    (ht : msg.totalChunks = N) :
    Undelivered N W (ReceiveEngine.handleData cfg fec nodeId outputDir r msg srcAddr true ackNonce).1 ∧
      ∀ m ∈ (ReceiveEngine.handleData cfg fec nodeId outputDir r msg srcAddr true ackNonce).2,
        AcksNothing m := by
  have s := ReceiveEngine.handleData_inv cfg fec nodeId outputDir (fun x rs hx => (h.states x rs hx).1)
    hc ht (fun he => by simp [hfec] at he) srcAddr true ackNonce
  have hst : ∀ x rs, (ReceiveEngine.handleData cfg fec nodeId outputDir r msg srcAddr true
      ackNonce).1.activeReceives.get? x = some rs → rs.delivered = false := by
    intro x rs hx
    by_cases hxb : x = msg.bundleId
    · subst hxb
      cases hd : rs.delivered
      · rfl
      · rcases s.delivery rs hx hd with ⟨rs₀, h₀, hd₀⟩ | hall
        · rw [(h.states _ rs₀ h₀).2] at hd₀; cases hd₀
        · exact absurd hall (not_all_data (s.inv _ rs hx) hW)
    · rw [s.other x hxb] at hx
      exact (h.states x rs hx).2
  refine ⟨⟨?_, fun x rs hx => ⟨s.inv x rs hx, hst x rs hx⟩⟩, fun m hm => ?_⟩
  · rcases s.files with he | ⟨rs', hx, -, hall⟩
    · rw [he, h.files]
    · exact absurd hall (not_all_data (s.inv _ rs' hx) hW)
  · obtain ⟨x, rs, hx, rfl | ⟨hd, -⟩⟩ := s.sent m hm
    · exact acksNothing_makeSackMsg _ _
    · rw [hst x rs hx] at hd; cases hd

theorem feedReceiver_undelivered (hW : W < N) (hfec : fec.enabled = false) {ms : List Message}
    (hms : ∀ m ∈ ms, Small N W m) {r : ReceiveEngine} (h : Undelivered N W r) :
    Undelivered N W (feedReceiver cfg fec nodeId outputDir srcAddr ackNonce r ms).1 ∧
      ∀ m ∈ (feedReceiver cfg fec nodeId outputDir srcAddr ackNonce r ms).2, AcksNothing m := by
  induction ms generalizing r with
  | nil => exact ⟨h, fun _ hm => absurd hm (List.not_mem_nil _)⟩
  | cons m ms ih =>
    obtain ⟨dm, rfl, hc, ht⟩ := hms m (List.mem_cons_self m ms)
    have hd := h.handleData cfg fec nodeId outputDir srcAddr ackNonce hW hfec hc ht
    have hr := ih (fun m hm => hms m (List.mem_cons_of_mem _ hm)) hd.1
    simp only [feedReceiver, List.mem_append]
    exact ⟨hr.1, fun m hm => hm.elim (hd.2 m) (hr.2 m)⟩

end Receiver

/-! ## Rounds -/

/-- Between rounds: the sender frozen, the receiver undelivered, only DATA of ids below `W`
    queued for the receiver, and nothing for the sender. -/
structure Stalled (N W : Nat) (b : String) (s : InProcess) : Prop where
  sender : Frozen N W b s.sender
  receiver : Undelivered N W s.receiver
  toReceiver : ∀ m ∈ s.toReceiver, Small N W m
  toSender : s.toSender = []

section Rounds

variable {N W : Nat}

/-- One round keeps the stall, when a nonempty window is smaller than the file. -/
theorem Stalled.drive (hfec : fec.enabled = false) (hWN : 0 < W → W < N) {s : InProcess}
    (h : Stalled N W bundleId s) (now tick : ℚ) :
    Stalled N W bundleId (drive cfg fec nodeId outputDir srcAddr bundleId ackNonce s now tick) := by
  have key : Undelivered N W (feedReceiver cfg fec nodeId outputDir srcAddr ackNonce s.receiver
        s.toReceiver).1 ∧
      Frozen N W bundleId (feedSender cfg s.sender now (s.toSender ++ (feedReceiver cfg fec nodeId
        outputDir srcAddr ackNonce s.receiver s.toReceiver).2)).1 ∧
      (feedSender cfg s.sender now (s.toSender ++ (feedReceiver cfg fec nodeId outputDir srcAddr
        ackNonce s.receiver s.toReceiver).2)).2 = [] := by
    by_cases hW : W < N
    · have hr := feedReceiver_undelivered cfg fec nodeId outputDir srcAddr ackNonce hW hfec
        h.toReceiver h.receiver
      rw [h.toSender, List.nil_append]
      exact ⟨hr.1, feedSender_frozen cfg (by omega) now hr.2 h.sender⟩
    · have hnil : s.toReceiver = [] := by
        cases hl : s.toReceiver with
        | nil => rfl
        | cons m ms =>
          obtain ⟨dm, -, hc, -⟩ := h.toReceiver m (by simp [hl])
          exact absurd (hWN (by omega)) hW
      simp only [hnil, h.toSender, feedReceiver, feedSender, List.nil_append, and_true]
      exact ⟨h.receiver, h.sender⟩
  have ht := key.2.1.tick cfg tick fun _ => true
  exact ⟨ht.1, key.1, by simpa only [InProcess.drive, key.2.2, List.nil_append] using ht.2, rfl⟩

theorem Stalled.rounds (hfec : fec.enabled = false) (hWN : 0 < W → W < N)
    (clocks : List (ℚ × ℚ)) {s : InProcess} (h : Stalled N W bundleId s) :
    Stalled N W bundleId (rounds cfg fec nodeId outputDir srcAddr bundleId ackNonce s clocks) := by
  induction clocks generalizing s with
  | nil => exact h
  | cons c cs ih => exact ih (h.drive cfg fec nodeId outputDir srcAddr bundleId ackNonce hfec hWN c.1 c.2)

/-- `send_file` with FEC off from fresh engines: the window `[0, min window_size N)` of the `N`
    chunks, the first DATA messages queued, and nothing else. -/
theorem stalled_start (hfec : fec.enabled = false) (hcs : 0 < cfg.chunkSize) (fileData : Bytes)
    (fecEnabled : Bool) (now : ℚ) :
    Stalled ((fileData.length + cfg.chunkSize - 1) / cfg.chunkSize)
      (min cfg.windowSize ((fileData.length + cfg.chunkSize - 1) / cfg.chunkSize)) bundleId
      (start cfg fec srcNodeId nodeId bundleId fileData fecEnabled now) := by
  have hcc : createChunks cfg fec fileData bundleId (fecEnabled && fec.enabled) =
      some ((List.range ((fileData.length + cfg.chunkSize - 1) / cfg.chunkSize)).map
        (dataChunk cfg fec fileData bundleId false)) := by
    simp [createChunks, hfec, Nat.pos_iff_ne_zero.mp hcs]
  have h₀ : SendEngine.Tidy {} := SendEngine.tidy_fresh ({} : SendEngine).store fun _ _ hk => by cases hk
  cases hr : SendEngine.sendFile cfg fec srcNodeId {} "send_file.bin" fileData nodeId fecEnabled
      bundleId now (fun _ => true) with
  | none => simp [SendEngine.sendFile, hcc] at hr
  | some r =>
    have t := h₀.sendFile cfg fec srcNodeId hr
    have hf : Frozen ((fileData.length + cfg.chunkSize - 1) / cfg.chunkSize)
        (min cfg.windowSize ((fileData.length + cfg.chunkSize - 1) / cfg.chunkSize)) bundleId r.1 := by
      obtain ⟨chunks, row, hc, -, rfl⟩ := SendEngine.sendFile_eq_some cfg hr
      rw [hcc, Option.some.injEq] at hc
      subst hc
      refine Frozen.of_calm (by simp) (fun x st hx => ?_) (SendEngine.calm_sendWindow _ _ _ _) t.1
      simp only [Dict.get?_insert, Dict.get?_empty] at hx
      split at hx
      · cases hx; simp
      · cases hx
    simp only [start, hr, Option.getD_some]
    exact ⟨hf, ⟨rfl, fun x rs hx => by simp at hx⟩, fun m hm => hf.small (t.2 m hm), rfl⟩

end Rounds

/-- Neither side ever finishes: with FEC off, from `send_file` of a file of more chunks than
    the window, or of the empty file, no list of rounds completes the sender, delivers a receive
    state or writes a file. -/
theorem rounds_stall (hfec : fec.enabled = false) (hcs : 0 < cfg.chunkSize) (fileData : Bytes)
    (hN : cfg.windowSize < (fileData.length + cfg.chunkSize - 1) / cfg.chunkSize ∨ fileData = [])
    (fecEnabled : Bool) (now : ℚ) (clocks : List (ℚ × ℚ)) :
    let s : InProcess := rounds cfg fec nodeId outputDir srcAddr bundleId ackNonce
      (start cfg fec srcNodeId nodeId bundleId fileData fecEnabled now) clocks
    (s.sender.activeSends.get? bundleId).map SendState.completed = some false ∧
      s.receiver.files = ∅ ∧
      ∀ x rs, s.receiver.activeReceives.get? x = some rs → rs.delivered = false := by
  have hWN : 0 < min cfg.windowSize ((fileData.length + cfg.chunkSize - 1) / cfg.chunkSize) →
      min cfg.windowSize ((fileData.length + cfg.chunkSize - 1) / cfg.chunkSize) <
        (fileData.length + cfg.chunkSize - 1) / cfg.chunkSize := by
    rcases hN with hN | rfl
    · omega
    · simp [Nat.div_eq_of_lt (Nat.sub_lt hcs Nat.one_pos)]
  have h := (stalled_start cfg fec srcNodeId nodeId bundleId hfec hcs fileData fecEnabled now).rounds
    cfg fec nodeId outputDir srcAddr bundleId ackNonce hfec hWN clocks
  obtain ⟨st, hst⟩ := Option.isSome_iff_exists.mp h.sender.isSome
  exact ⟨by rw [hst, Option.map_some', (h.sender.states _ st hst).2.2.2.2], h.receiver.files,
    fun x rs hx => (h.receiver.states x rs hx).2⟩

/-- The failing runs: the file `01 02 03` in chunks of one byte with a window of one chunk,
    and the empty file, both with FEC off, are never completed nor written. -/
theorem inProcess_never_completes (clocks : List (ℚ × ℚ)) :
    let cfg : TransferConfig :=
      { chunkSize := 1, windowSize := 1, baseRtoMs := 200, maxRtoMs := 500 }
    let s : InProcess := rounds cfg { enabled := false } "B" "recv" "h:1" "b" 7
      (start cfg { enabled := false } "A" "B" "b" [1, 2, 3] false 0) clocks
    let e : InProcess := rounds cfg { enabled := false } "B" "recv" "h:1" "b" 7
      (start cfg { enabled := false } "A" "B" "b" [] false 0) clocks
    (s.sender.activeSends.get? "b").map SendState.completed = some false ∧ s.receiver.files = ∅ ∧
      (e.sender.activeSends.get? "b").map SendState.completed = some false ∧
      e.receiver.files = ∅ :=
  have hs := rounds_stall { chunkSize := 1, windowSize := 1, baseRtoMs := 200, maxRtoMs := 500 }
    { enabled := false } "A" "B" "recv" "h:1" "b" 7 rfl Nat.one_pos [1, 2, 3]
    (Or.inl (by decide)) false 0 clocks
  have he := rounds_stall { chunkSize := 1, windowSize := 1, baseRtoMs := 200, maxRtoMs := 500 }
    { enabled := false } "A" "B" "recv" "h:1" "b" 7 rfl Nat.one_pos [] (Or.inr rfl) false 0
    clocks
  ⟨hs.1, hs.2.1, he.1, he.2.1⟩

end InProcess

end Courier
