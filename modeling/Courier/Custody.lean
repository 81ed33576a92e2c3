import Courier.Protocol
import Courier.Store

/-
  Courier: the custody manager (`custody_manager.py`).

  `active_records`, the in-memory view of the custody records, beside the store whose
  `custody_records` table `_save_record` writes through. Times are seconds, each call given
  its `time.time()` reading; `handle_custody_req` is also given the nonce
  `make_custody_ack_msg` draws. `check_retry_timers` runs its loop over a snapshot of
  `active_records` in insertion order; each pass touches only its own record.

  Proved: every record is one this node accepted, stored under its bundle id, in state
  `accepted`, `complete` or `failed`, with a retry count at most its `max_retries`
  (`recordsOk_run`); a retry tick either fails a record whose count has reached `max_retries`
  or counts one more retry and sets the timer `2 ^ retry_count * backoff_base_sec` past the
  tick (`retryRecord_spec`), and a whole tick does so to every record at once
  (`checkRetryTimers_get?`, `tickRecord`). Every call moves every
  record forward (`Forward`: a final record keeps its state, the retry count never decreases)
  except a CUSTODY_REQ for a bundle whose record is final or retried, which starts it afresh
  (`custodyReq_rewinds_iff`). Retries end: ticks spaced at least the longest backoff apart fail
  a record that nothing else touches after `max_retries` retries (`custody_retries_end`).
-/

namespace Courier

/-- A `CustodyManager`: the records in memory and the store. -/
structure CustodyManager where
  activeRecords : Dict String CustodyRecord := ∅
  store : Store := Store.empty

/-- `record.state in ("complete", "failed")`. -/
def CustodyRecord.isFinal (record : CustodyRecord) : Bool :=
  record.state = "complete" || record.state = "failed"

/-- A call into the custody manager. -/
inductive CustodyOp where
  | handleCustodyReq (bundleId : String) (ranges : List (Int × Int)) (now : ℚ) (ackNonce : Nat)
  | handleCustodyAck (bundleId : String)
  | handleDelivered (bundleId : String)
  | checkRetryTimers (now : ℚ)

namespace CustodyManager

variable (cfg : CustodyConfig) (nodeId : String)

/-- `_save_record(record)`: the table row and the in-memory record. -/
def saveRecord (m : CustodyManager) (record : CustodyRecord) : CustodyManager :=
  { activeRecords := m.activeRecords.insert record.bundleId record
    store := m.store.saveCustodyRecord record }

/-- The record `handle_custody_req` accepts at `now`. -/
def acceptedRecord (bundleId : String) (ranges : List (Int × Int)) (now : ℚ) : CustodyRecord :=
  { bundleId, ownerNode := nodeId, chunkRanges := ranges, retryTimer := now + cfg.backoffBaseSec,
    retryCount := 0, maxRetries := cfg.maxRetries, state := "accepted" }

/-- `handle_custody_req(msg, sender_addr)` at `now`: custody accepted and CUSTODY_ACK sent. -/
def handleCustodyReq (m : CustodyManager) (bundleId : String) (ranges : List (Int × Int))
    (now : ℚ) (ackNonce : Nat) : CustodyManager × List Message :=
  (m.saveRecord (acceptedRecord cfg nodeId bundleId ranges now),
    [makeCustodyAckMsg bundleId ranges ackNonce])

/-- `handle_custody_ack(msg)`: the bundle row becomes `custody_transferred`. -/
def handleCustodyAck (m : CustodyManager) (bundleId : String) : CustodyManager :=
  { m with store := m.store.updateBundleState bundleId "custody_transferred" }

/-- `handle_delivered(msg)`: a record not yet final becomes `complete`. -/
def handleDelivered (m : CustodyManager) (bundleId : String) : CustodyManager :=
  match m.activeRecords.get? bundleId with
  | some record => if record.isFinal then m else m.saveRecord { record with state := "complete" }
  | none => m

/-- The body of `check_retry_timers`' loop for one record at `now`. -/
def retryRecord (now : ℚ) (m : CustodyManager) (record : CustodyRecord) : CustodyManager :=
  if record.isFinal then m
  else if record.retryTimer ≤ now then
    if record.retryCount ≥ record.maxRetries then m.saveRecord { record with state := "failed" }
    else
      m.saveRecord { record with
        retryCount := record.retryCount + 1
        retryTimer := now + 2 ^ (record.retryCount + 1) * cfg.backoffBaseSec }
  else m

/-- `check_retry_timers()` at `now`. -/
def checkRetryTimers (m : CustodyManager) (now : ℚ) : CustodyManager :=
  m.activeRecords.entries.foldl (fun m e => retryRecord cfg now m e.2) m

/-- One call, with the messages it sends. -/
def step (m : CustodyManager) : CustodyOp → CustodyManager × List Message
  | .handleCustodyReq bundleId ranges now ackNonce =>
    handleCustodyReq cfg nodeId m bundleId ranges now ackNonce
  | .handleCustodyAck bundleId => (handleCustodyAck m bundleId, [])
  | .handleDelivered bundleId => (handleDelivered m bundleId, [])
  | .checkRetryTimers now => (checkRetryTimers cfg m now, [])

/-- The manager after a sequence of calls. -/
def run (m : CustodyManager) (ops : List CustodyOp) : CustodyManager :=
  ops.foldl (fun m op => (step cfg nodeId m op).1) m

/-! ## What each call does -/

@[simp] theorem saveRecord_get? (m : CustodyManager) (record : CustodyRecord) (b : String) :
    (m.saveRecord record).activeRecords.get? b =
      if b = record.bundleId then some record else m.activeRecords.get? b := by
  simp [saveRecord]

theorem saveRecord_custody (m : CustodyManager) (record : CustodyRecord) (b : String) :
    (m.saveRecord record).store.custody.get? b =
      if b = record.bundleId then some record else m.store.custody.get? b := by
  simp only [saveRecord, Store.saveCustodyRecord, Dict.get?_insert, Dict.get?_erase]
  split_ifs <;> rfl

/-- `handle_delivered` completes a record that is not final, and does nothing else. -/
theorem handleDelivered_cases (m : CustodyManager) (b : String) :
    handleDelivered m b = m ∨ ∃ record, m.activeRecords.get? b = some record ∧
      record.isFinal = false ∧ handleDelivered m b = m.saveRecord { record with state := "complete" } := by
  unfold handleDelivered
  split
  · rename_i record hget
    split
    · exact Or.inl rfl
    · rename_i hf
      exact Or.inr ⟨record, hget, by simpa using hf, rfl⟩
  · exact Or.inl rfl

/-- One pass of `check_retry_timers`' loop: a record that is final or not yet due is left; a
    due record whose count has reached `max_retries` fails; any other due record counts one
    more retry, its timer set `2 ^ retry_count * backoff_base_sec` past `now`. -/
theorem retryRecord_spec (now : ℚ) (m : CustodyManager) (record : CustodyRecord) :
    retryRecord cfg now m record = m ∧ (record.isFinal ∨ now < record.retryTimer) ∨
    retryRecord cfg now m record = m.saveRecord { record with state := "failed" } ∧
      record.isFinal = false ∧ record.retryTimer ≤ now ∧ record.maxRetries ≤ record.retryCount ∨
    retryRecord cfg now m record = m.saveRecord { record with
        retryCount := record.retryCount + 1
        retryTimer := now + 2 ^ (record.retryCount + 1) * cfg.backoffBaseSec } ∧
      record.isFinal = false ∧ record.retryTimer ≤ now ∧ record.retryCount < record.maxRetries := by
  unfold retryRecord
  split_ifs with h₁ h₂ h₃
  · exact Or.inl ⟨rfl, Or.inl h₁⟩
  · exact Or.inr (Or.inl ⟨rfl, by simpa using h₁, h₂, h₃⟩)
  · exact Or.inr (Or.inr ⟨rfl, by simpa using h₁, h₂, by omega⟩)
  · exact Or.inl ⟨rfl, Or.inr (not_le.mp h₂)⟩

theorem retryRecord_get?_ne (now : ℚ) (m : CustodyManager) (record : CustodyRecord) {b : String}
    (hb : b ≠ record.bundleId) :
    (retryRecord cfg now m record).activeRecords.get? b = m.activeRecords.get? b := by
  rcases retryRecord_spec cfg now m record with ⟨h, -⟩ | ⟨h, -⟩ | ⟨h, -⟩ <;> simp [h, hb]

/-! ## Every record is one this node accepted -/

/-- A record this node accepted: its owner, its `max_retries` from the configuration, a retry
    count at most that, and a state `handle_custody_req` or a later call set. -/
structure RecordOk (record : CustodyRecord) : Prop where
  ownerNode : record.ownerNode = nodeId
  maxRetries : record.maxRetries = cfg.maxRetries
  retryCount_le : record.retryCount ≤ record.maxRetries
  state : record.state = "accepted" ∨ record.state = "complete" ∨ record.state = "failed"

/-- Every record in memory is kept under its bundle id and is one this node accepted. -/
def RecordsOk (m : CustodyManager) : Prop :=
  ∀ b record, m.activeRecords.get? b = some record → record.bundleId = b ∧ RecordOk cfg nodeId record

namespace RecordsOk

variable {cfg nodeId} {m : CustodyManager} (h : RecordsOk cfg nodeId m)
include h

theorem saveRecord {record : CustodyRecord} (hr : RecordOk cfg nodeId record) :
    RecordsOk cfg nodeId (m.saveRecord record) := fun b r hb => by
  rw [saveRecord_get?] at hb
  split_ifs at hb with hbr
  · cases hb; exact ⟨hbr.symm, hr⟩
  · exact h b r hb

theorem retryRecord (now : ℚ) {record : CustodyRecord} (hr : RecordOk cfg nodeId record) :
    RecordsOk cfg nodeId (retryRecord cfg now m record) := by
  rcases retryRecord_spec cfg now m record with ⟨he, -⟩ | ⟨he, -⟩ | ⟨he, -, -, hlt⟩ <;> rw [he]
  · exact h
  · exact h.saveRecord ⟨hr.ownerNode, hr.maxRetries, hr.retryCount_le, Or.inr (Or.inr rfl)⟩
  · exact h.saveRecord ⟨hr.ownerNode, hr.maxRetries, hlt, hr.state⟩

theorem step (op : CustodyOp) : RecordsOk cfg nodeId (CustodyManager.step cfg nodeId m op).1 := by
  cases op with
  | handleCustodyReq => exact h.saveRecord ⟨rfl, rfl, Nat.zero_le _, Or.inl rfl⟩
  | handleCustodyAck => exact h
  | handleDelivered b =>
    show RecordsOk cfg nodeId (handleDelivered m b)
    rcases handleDelivered_cases m b with he | ⟨record, hget, -, he⟩ <;> rw [he]
    · exact h
    · have hr := (h b record hget).2
      exact h.saveRecord ⟨hr.ownerNode, hr.maxRetries, hr.retryCount_le, Or.inr (Or.inl rfl)⟩
  | checkRetryTimers now =>
    show RecordsOk cfg nodeId (m.activeRecords.entries.foldl _ m)
    have hall : ∀ e ∈ m.activeRecords.entries, RecordOk cfg nodeId e.2 :=
      fun e he => (h e.1 e.2 (Dict.mem_entries.mp he)).2
    generalize m.activeRecords.entries = es at hall
    induction es generalizing m with
    | nil => exact h
    | cons e es ih =>
      exact ih (h.retryRecord now (hall e (List.mem_cons_self e es)))
        fun e' he' => hall e' (List.mem_cons_of_mem e he')

end RecordsOk

theorem recordsOk_run (ops : List CustodyOp) {m : CustodyManager} (h : RecordsOk cfg nodeId m) :
    RecordsOk cfg nodeId (run cfg nodeId m ops) := by
  induction ops generalizing m with
  | nil => exact h
  | cons op ops ih => exact ih (h.step op)

/-! ## A tick, record by record -/

/-- The record one pass of `check_retry_timers`' loop leaves at `now`. -/
def tickRecord (now : ℚ) (record : CustodyRecord) : CustodyRecord :=
  if record.isFinal then record
  else if record.retryTimer ≤ now then
    if record.retryCount ≥ record.maxRetries then { record with state := "failed" }
    else
      { record with
        retryCount := record.retryCount + 1
        retryTimer := now + 2 ^ (record.retryCount + 1) * cfg.backoffBaseSec }
  else record

/-- A pass on a record stored under its own id leaves its `tickRecord` there, and every other
    record as it was. -/
theorem retryRecord_get?_self (now : ℚ) {m : CustodyManager} {record : CustodyRecord}
    (hget : m.activeRecords.get? record.bundleId = some record) (b : String) :
    (retryRecord cfg now m record).activeRecords.get? b =
      if b = record.bundleId then some (tickRecord cfg now record) else m.activeRecords.get? b := by
  by_cases hb : b = record.bundleId
  · subst hb
    rw [if_pos rfl]
    unfold retryRecord tickRecord
    split_ifs <;> simp [hget]
  · rw [if_neg hb, retryRecord_get?_ne cfg now m record hb]

/-- The loop of `check_retry_timers` over entries stored under their own ids, none twice: each
    entry's record becomes its `tickRecord`, and every other record is left. -/
theorem foldl_retryRecord_get? (now : ℚ) :
    ∀ (es : List (String × CustodyRecord)) (m : CustodyManager), (es.map Prod.fst).Nodup →
      (∀ e ∈ es, e.2.bundleId = e.1 ∧ m.activeRecords.get? e.1 = some e.2) → ∀ b,
      (es.foldl (fun m e => retryRecord cfg now m e.2) m).activeRecords.get? b =
        if b ∈ es.map Prod.fst then (m.activeRecords.get? b).map (tickRecord cfg now)
        else m.activeRecords.get? b
  | [], _, _, _, b => by rw [List.map_nil, if_neg (List.not_mem_nil b)]; rfl
  | e :: es, m, hnd, hes, b => by
    rw [List.map_cons, List.nodup_cons] at hnd
    obtain ⟨hkey, hget⟩ := hes e (List.mem_cons_self e es)
    have h₁ := retryRecord_get?_self cfg now (hkey ▸ hget : m.activeRecords.get? e.2.bundleId = some e.2)
    rw [hkey] at h₁
    have hes' : ∀ e' ∈ es, e'.2.bundleId = e'.1 ∧
        (retryRecord cfg now m e.2).activeRecords.get? e'.1 = some e'.2 := fun e' he' => by
      obtain ⟨k', g'⟩ := hes e' (List.mem_cons_of_mem e he')
      have hne : e'.1 ≠ e.1 := fun h => hnd.1 (h ▸ List.mem_map_of_mem Prod.fst he')
      rw [h₁, if_neg hne]
      exact ⟨k', g'⟩
    rw [List.foldl_cons, foldl_retryRecord_get? now es _ hnd.2 hes' b, h₁]
    by_cases hbe : b = e.1
    · subst hbe
      simp [hnd.1, hget]
    · rw [if_neg hbe]
      by_cases hm : b ∈ es.map Prod.fst
      · rw [if_pos hm, if_pos (show b ∈ (e :: es).map Prod.fst from List.mem_cons_of_mem _ hm)]
      · rw [if_neg hm, if_neg (show b ∉ (e :: es).map Prod.fst by simp [hbe, hm])]

/-- With its records stored under their own ids, a tick at `now` turns every record into its
    `tickRecord`. -/
theorem checkRetryTimers_get? {m : CustodyManager}
    (h : ∀ b record, m.activeRecords.get? b = some record → record.bundleId = b) (now : ℚ)
    (b : String) :
    (checkRetryTimers cfg m now).activeRecords.get? b =
      (m.activeRecords.get? b).map (tickRecord cfg now) := by
  rw [checkRetryTimers, foldl_retryRecord_get? cfg now _ m m.activeRecords.nodup
    (fun e he => ⟨h e.1 e.2 (Dict.mem_entries.mp he), Dict.mem_entries.mp he⟩)]
  split_ifs with hk
  · rfl
  · rw [Dict.get?_eq_none.mpr hk]
    rfl

/-! ## Records move forward, but for a repeated request -/

/-- `r'` is the record `r` moved forward: a final record keeps its state, and the retry count
    never decreases. -/
structure Forward (r r' : CustodyRecord) : Prop where
  final : r.isFinal = true → r'.state = r.state
  retryCount : r.retryCount ≤ r'.retryCount

theorem Forward.refl (r : CustodyRecord) : Forward r r := ⟨fun _ => rfl, le_rfl⟩

theorem forward_tickRecord (now : ℚ) (r : CustodyRecord) : Forward r (tickRecord cfg now r) := by
  unfold tickRecord
  split_ifs with h₁
  · exact Forward.refl r
  · exact ⟨fun h => absurd h h₁, le_rfl⟩
  · exact ⟨fun h => absurd h h₁, Nat.le_succ _⟩
  · exact Forward.refl r

/-- The fresh record of a CUSTODY_REQ moves `r` forward only when `r` is neither final nor
    retried. -/
theorem forward_acceptedRecord_iff (r : CustodyRecord) (b : String) (ranges : List (Int × Int))
    (now : ℚ) :
    Forward r (acceptedRecord cfg nodeId b ranges now) ↔ r.isFinal = false ∧ r.retryCount = 0 := by
  constructor
  · rintro ⟨hfin, hcount⟩
    refine ⟨?_, Nat.le_zero.mp hcount⟩
    cases hf : r.isFinal
    · rfl
    · have hs : "accepted" = r.state := hfin hf
      simp [CustodyRecord.isFinal, ← hs] at hf
  · rintro ⟨hf, hc⟩
    exact ⟨fun h => absurd (hf ▸ h) Bool.false_ne_true, by rw [hc]; exact Nat.zero_le _⟩

/-- Every call but a CUSTODY_REQ moves every record forward. -/
theorem forward_step {m : CustodyManager} (h : RecordsOk cfg nodeId m) (op : CustodyOp)
    (hop : ∀ b ranges now ackNonce, op ≠ .handleCustodyReq b ranges now ackNonce)
    {b : String} {r r' : CustodyRecord} (hr : m.activeRecords.get? b = some r)
    (hr' : (step cfg nodeId m op).1.activeRecords.get? b = some r') : Forward r r' := by
  have hsame : m.activeRecords.get? b = some r' → Forward r r' := fun h =>
    Option.some.inj (hr.symm.trans h) ▸ Forward.refl r
  cases op with
  | handleCustodyReq b' ranges now ackNonce => exact absurd rfl (hop b' ranges now ackNonce)
  | handleCustodyAck => exact hsame hr'
  | handleDelivered b' =>
    change (handleDelivered m b').activeRecords.get? b = some r' at hr'
    rcases handleDelivered_cases m b' with he | ⟨record, hget, hf, he⟩ <;> rw [he] at hr'
    · exact hsame hr'
    · rw [saveRecord_get?] at hr'
      split_ifs at hr' with hb
      · cases hr'
        rw [hb, (h b' record hget).1, hget] at hr
        cases hr
        exact ⟨fun h => absurd h (by rw [hf]; exact Bool.false_ne_true), le_rfl⟩
      · exact hsame hr'
  | checkRetryTimers now =>
    change (checkRetryTimers cfg m now).activeRecords.get? b = some r' at hr'
    rw [checkRetryTimers_get? cfg (fun b r hb => (h b r hb).1), hr] at hr'
    cases hr'
    exact forward_tickRecord cfg now r

/-- In every run from a fresh manager, a call moves some bundle's record backward exactly when
    it is a CUSTODY_REQ for a bundle whose record is already final or has been retried, which
    the request overwrites with a fresh `accepted` record of retry count 0. -/
theorem custodyReq_rewinds_iff (ops : List CustodyOp) (op : CustodyOp) :
    let m := run cfg nodeId {} ops
    (∃ b r r', m.activeRecords.get? b = some r ∧
        (step cfg nodeId m op).1.activeRecords.get? b = some r' ∧ ¬ Forward r r') ↔
      ∃ b ranges now ackNonce r, op = .handleCustodyReq b ranges now ackNonce ∧
        m.activeRecords.get? b = some r ∧ (r.isFinal = true ∨ 0 < r.retryCount) := by
  intro m
  have hok : RecordsOk cfg nodeId m :=
    recordsOk_run cfg nodeId ops fun b r h => by simp [Dict.get?_empty] at h
  cases op
  case handleCustodyReq b ranges now ackNonce =>
    have hnew : ∀ b', (step cfg nodeId m (.handleCustodyReq b ranges now ackNonce)).1.activeRecords.get? b' =
        if b' = b then some (acceptedRecord cfg nodeId b ranges now) else m.activeRecords.get? b' :=
      fun b' => saveRecord_get? _ _ b'
    constructor
    · rintro ⟨b', r, r', hr, hr', hnf⟩
      rw [hnew] at hr'
      split_ifs at hr' with hb
      · cases hr'
        subst hb
        refine ⟨b', ranges, now, ackNonce, r, rfl, hr, ?_⟩
        rw [forward_acceptedRecord_iff] at hnf
        cases hf : r.isFinal
        · exact Or.inr (Nat.pos_of_ne_zero fun hc => hnf ⟨hf, hc⟩)
        · exact Or.inl rfl
      · rw [hr] at hr'
        cases hr'
        exact absurd (Forward.refl r) hnf
    · rintro ⟨b', ranges', now', ackNonce', r, hop, hr, hbad⟩
      cases hop
      refine ⟨b, r, _, hr, by rw [hnew, if_pos rfl], fun hf => ?_⟩
      rw [forward_acceptedRecord_iff] at hf
      rcases hbad with hbad | hbad
      · rw [hf.1] at hbad
        exact Bool.false_ne_true hbad
      · omega
  all_goals
    refine ⟨fun ⟨b, r, r', hr, hr', hnf⟩ => (hnf (forward_step cfg nodeId hok _
      (by intro _ _ _ _ h; cases h) hr hr')).elim, ?_⟩
    rintro ⟨_, _, _, _, _, hop, _⟩
    cases hop

/-- A CUSTODY_REQ for `b` repeated after `b` was delivered turns its `complete` record back into
    an `accepted` one. -/
theorem custodyReq_rewinds_delivered :
    let m := run {} "B" {} [.handleCustodyReq "b" [] 0 0, .handleDelivered "b"]
    ∃ b r r', m.activeRecords.get? b = some r ∧
      (step {} "B" m (.handleCustodyReq "b" [] 1 0)).1.activeRecords.get? b = some r' ∧
      ¬ Forward r r' :=
  (custodyReq_rewinds_iff {} "B" _ _).mpr ⟨"b", [], 1, 0, _, rfl, rfl, Or.inl rfl⟩

/-! ## Retries end -/

/-- A tick leaves a final record as it is. -/
theorem tickRecord_of_isFinal (now : ℚ) {r : CustodyRecord} (h : r.isFinal = true) :
    tickRecord cfg now r = r := by
  simp [tickRecord, h]

theorem foldl_tickRecord_of_isFinal (ticks : List ℚ) {r : CustodyRecord} (h : r.isFinal = true) :
    ticks.foldl (fun r t => tickRecord cfg t r) r = r := by
  induction ticks with
  | nil => rfl
  | cons t ts ih => rw [List.foldl_cons, tickRecord_of_isFinal cfg t h, ih]

/-- Ticks spaced at least the longest backoff apart, the first at or after a record's retry
    timer, fail a record that is not final once there have been more than `max_retries` less its
    retry count of them, its retry count then at `max_retries`. -/
theorem foldl_tickRecord_fails {r : CustodyRecord} (hmax : r.maxRetries = cfg.maxRetries)
    (hle : r.retryCount ≤ r.maxRetries) (hf : r.isFinal = false) (ticks : List ℚ)
    (hfirst : ∀ t ∈ ticks.head?, r.retryTimer ≤ t)
    (hgap : ticks.Chain' fun a b : ℚ => a + 2 ^ cfg.maxRetries * cfg.backoffBaseSec ≤ b)
    (hlen : cfg.maxRetries - r.retryCount < ticks.length) :
    (ticks.foldl (fun r t => tickRecord cfg t r) r).state = "failed" ∧
      (ticks.foldl (fun r t => tickRecord cfg t r) r).retryCount = cfg.maxRetries := by
  induction ticks generalizing r with
  | nil => exact absurd hlen (Nat.not_lt_zero _)
  | cons t ts ih =>
    have ht : r.retryTimer ≤ t := hfirst t rfl
    rw [List.foldl_cons]
    by_cases hc : r.maxRetries ≤ r.retryCount
    · -- the count has reached `max_retries`: the record fails and stays failed
      have hr : tickRecord cfg t r = { r with state := "failed" } := by
        simp [tickRecord, hf, ht, hc]
      rw [hr, foldl_tickRecord_of_isFinal cfg ts (by simp [CustodyRecord.isFinal])]
      exact ⟨rfl, show r.retryCount = _ by omega⟩
    · -- one more retry, due again before the next tick
      have hr : tickRecord cfg t r = { r with
          retryCount := r.retryCount + 1
          retryTimer := t + 2 ^ (r.retryCount + 1) * cfg.backoffBaseSec } := by
        simp [tickRecord, hf, ht, hc]
      have hpow : (2 : ℚ) ^ (r.retryCount + 1) * cfg.backoffBaseSec ≤
          2 ^ cfg.maxRetries * cfg.backoffBaseSec :=
        mul_le_mul_of_nonneg_right (pow_le_pow_right₀ (by norm_num) (by omega)) (Nat.cast_nonneg _)
      rw [hr]
      refine ih hmax (show r.retryCount + 1 ≤ r.maxRetries by omega) hf (fun t' ht' => ?_)
        hgap.tail (show cfg.maxRetries - (r.retryCount + 1) < ts.length by
          simp only [List.length_cons] at hlen; omega)
      have := hgap.rel_head? ht'
      show t + _ ≤ t'
      linarith

/-- What retry ticks read of the records: each is stored under its bundle id, with the
    configured `max_retries` and a retry count at most it. -/
def RetriesOk (m : CustodyManager) : Prop :=
  ∀ b record, m.activeRecords.get? b = some record →
    record.bundleId = b ∧ record.maxRetries = cfg.maxRetries ∧
      record.retryCount ≤ record.maxRetries

theorem RecordsOk.retriesOk {m : CustodyManager} (h : RecordsOk cfg nodeId m) :
    RetriesOk cfg m := fun b record hb =>
  ⟨(h b record hb).1, (h b record hb).2.maxRetries, (h b record hb).2.retryCount_le⟩

/-- A tick keeps a record's id and `max_retries`, and its retry count at most that. -/
theorem tickRecord_retries (now : ℚ) {r : CustodyRecord} (hle : r.retryCount ≤ r.maxRetries) :
    (tickRecord cfg now r).bundleId = r.bundleId ∧
      (tickRecord cfg now r).maxRetries = r.maxRetries ∧
      (tickRecord cfg now r).retryCount ≤ (tickRecord cfg now r).maxRetries := by
  unfold tickRecord
  split_ifs <;> simp only [and_self, true_and, hle]
  omega

theorem RetriesOk.checkRetryTimers {m : CustodyManager} (h : RetriesOk cfg m) (now : ℚ) :
    RetriesOk cfg (checkRetryTimers cfg m now) := fun b r hb => by
  rw [checkRetryTimers_get? cfg (fun b r hb => (h b r hb).1)] at hb
  obtain ⟨r₀, h₀, rfl⟩ := Option.map_eq_some'.mp hb
  obtain ⟨hk, hmax, hle⟩ := h b r₀ h₀
  obtain ⟨hk', hmax', hle'⟩ := tickRecord_retries cfg now hle
  exact ⟨hk'.trans hk, hmax'.trans hmax, hle'⟩

/-- With its records stored under their own ids, ticks alone turn each record into the record
    the ticks leave, one after the other. -/
theorem run_ticks_get? {m : CustodyManager} (h : RetriesOk cfg m) (ticks : List ℚ)
    (b : String) :
    (run cfg nodeId m (ticks.map .checkRetryTimers)).activeRecords.get? b =
      (m.activeRecords.get? b).map fun r => ticks.foldl (fun r t => tickRecord cfg t r) r := by
  induction ticks generalizing m with
  | nil =>
    show m.activeRecords.get? b = _
    cases m.activeRecords.get? b <;> rfl
  | cons t ts ih =>
    show (run cfg nodeId (checkRetryTimers cfg m t) (ts.map .checkRetryTimers)).activeRecords.get?
      b = _
    rw [ih (h.checkRetryTimers cfg t), checkRetryTimers_get? cfg (fun b r hb => (h b r hb).1),
      Option.map_map]
    rfl

/-- A record left to ticks alone is given up. Ticks spaced at least the longest backoff,
    `2 ^ max_retries * backoff_base_sec`, apart, the first at or after its retry timer: once
    there have been more than `max_retries` less its retry count of them, a record that was not
    final has failed with its retry count at `max_retries`, and a final one is as it was. -/
theorem custody_retries_end {m : CustodyManager} (h : RetriesOk cfg m) {x : String}
    {r : CustodyRecord} (hx : m.activeRecords.get? x = some r) (ticks : List ℚ)
    (hfirst : ∀ t ∈ ticks.head?, r.retryTimer ≤ t)
    (hgap : ticks.Chain' fun a b : ℚ => a + 2 ^ cfg.maxRetries * cfg.backoffBaseSec ≤ b)
    (hlen : cfg.maxRetries - r.retryCount < ticks.length) :
    ∃ r', (run cfg nodeId m (ticks.map .checkRetryTimers)).activeRecords.get? x = some r' ∧
      (r.isFinal = true → r' = r) ∧
      (r.isFinal = false → r'.state = "failed" ∧ r'.retryCount = cfg.maxRetries) := by
  obtain ⟨-, hmax, hle⟩ := h x r hx
  refine ⟨_, by rw [run_ticks_get? cfg nodeId h, hx]; rfl,
    fun hf => foldl_tickRecord_of_isFinal cfg ticks hf, fun hf => ?_⟩
  exact foldl_tickRecord_fails cfg hmax hle hf ticks hfirst hgap hlen

/-- One retry allowed, a backoff of a second: after a CUSTODY_REQ at `0`, ticks at `1` and `3`
    retry the record once and then fail it. -/
theorem custody_retries_end_one_retry :
    let cfg : CustodyConfig := { maxRetries := 1, backoffBaseSec := 1 }
    let m := run cfg "B" {} [.handleCustodyReq "b" [] 0 0]
    let r := acceptedRecord cfg "B" "b" [] 0
    (RetriesOk cfg m ∧ m.activeRecords.get? "b" = some r ∧
      (∀ t ∈ [(1 : ℚ), 3].head?, r.retryTimer ≤ t) ∧
      [(1 : ℚ), 3].Chain' (fun a b : ℚ => a + 2 ^ cfg.maxRetries * cfg.backoffBaseSec ≤ b) ∧
      cfg.maxRetries - r.retryCount < [(1 : ℚ), 3].length) ∧
    ∃ r', (run cfg "B" m ([1, 3].map .checkRetryTimers)).activeRecords.get? "b" = some r' ∧
      (r.isFinal = true → r' = r) ∧
      (r.isFinal = false → r'.state = "failed" ∧ r'.retryCount = cfg.maxRetries) := by
  intro cfg m r
  have h : RetriesOk cfg m := (recordsOk_run cfg "B" _ fun _ _ h => by simp at h).retriesOk
  have hx : m.activeRecords.get? "b" = some r := rfl
  have hfirst : ∀ t ∈ [(1 : ℚ), 3].head?, r.retryTimer ≤ t := by
    simp [r, acceptedRecord, cfg]
  have hgap : [(1 : ℚ), 3].Chain' (fun a b : ℚ => a + 2 ^ cfg.maxRetries * cfg.backoffBaseSec ≤ b) := by
    simp [cfg]; norm_num
  have hlen : cfg.maxRetries - r.retryCount < [(1 : ℚ), 3].length := by decide
  exact ⟨⟨h, hx, hfirst, hgap, hlen⟩, custody_retries_end cfg "B" h hx [1, 3] hfirst hgap hlen⟩

end CustodyManager

end Courier
