import Courier.Dict
import Courier.Bytes
import Mathlib.Data.List.Sort
import Mathlib.Data.Rat.Defs

/-
  Courier: the configuration records (`config.py`) and the SQLite store (`storage.py`).

  `Store` holds the `bundles` table keyed by `bundle_id`, the `chunks` table keyed by
  `(bundle_id, chunk_id)` and the `custody_records` table keyed by `bundle_id`. `INSERT OR REPLACE` deletes the old row and inserts a new one, so a
  replaced bundle row moves to the end of the table; `list_bundles_by_state` returns the rows
  newest first, which here is the reverse of table order. Storage errors are not modelled:
  every statement succeeds.
-/

namespace Courier

/-- `TransferConfig` (milliseconds and seconds as the YAML integers). -/
structure TransferConfig where
  chunkSize : Nat := 1150
  windowSize : Nat := 1024
  baseRtoMs : Nat := 900
  ttlSec : Nat := 300
  maxRtoMs : Nat := 500
  deriving DecidableEq, Repr

/-- `FECConfig`. -/
structure FECConfig where
  enabled : Bool := true
  k : Nat := 4
  r : Nat := 2
  deriving DecidableEq, Repr

/-- `CustodyConfig` (`backoff_base_sec` in seconds). -/
structure CustodyConfig where
  maxRetries : Nat := 10
  backoffBaseSec : Nat := 2
  deriving DecidableEq, Repr

/-- A row of the `bundles` table (`created_at` is the row's place in the table). -/
structure BundleRow where
  src : String
  dst : String
  ttl : Nat
  state : String
  totalChunks : Nat
  bytesSent : Nat := 0
  chunksRetransmitted : Nat := 0
  fecEnabled : Bool := false
  k : Nat := 0
  r : Nat := 0
  filePath : String := ""
  fileSize : Nat := 0
  deriving DecidableEq, Repr

/-- A chunk dictionary, as `_create_chunks` builds it and as a `chunks` row stores it. -/
structure ChunkRecord where
  bundleId : String
  chunkId : Nat
  isParity : Bool
  blockId : Nat
  k : Nat
  r : Nat
  payload : Bytes
  checksum : Nat
  flags : Nat := 0
  deriving DecidableEq, Repr

/-- A `CustodyRecord`, which is also its row of the `custody_records` table (`chunk_ranges`
    stored as JSON, and the `acquired_at` column, which nothing reads, left out). The retry
    timer is in seconds. -/
structure CustodyRecord where
  bundleId : String
  ownerNode : String
  chunkRanges : List (Int × Int)
  retryTimer : ℚ
  retryCount : Nat := 0
  maxRetries : Nat := 10
  state : String := "pending"
  deriving DecidableEq

/-- The database: the `bundles`, `chunks` and `custody_records` tables. -/
structure Store where
  bundles : Dict String BundleRow
  chunks : Dict (String × Nat) ChunkRecord
  custody : Dict String CustodyRecord

namespace Store

/-- A store with no rows. -/
def empty : Store := ⟨∅, ∅, ∅⟩

/-- `save_bundle`: `INSERT OR REPLACE INTO bundles`. -/
def saveBundle (st : Store) (bundleId : String) (row : BundleRow) : Store :=
  { st with bundles := (st.bundles.erase bundleId).insert bundleId row }

/-- `load_bundle`. -/
def loadBundle (st : Store) (bundleId : String) : Option BundleRow := st.bundles.get? bundleId

/-- `update_bundle_state`: `UPDATE bundles SET state = ?` (no row, no change). -/
def updateBundleState (st : Store) (bundleId newState : String) : Store :=
  { st with bundles := st.bundles.mapVal fun b row => if b = bundleId then
      { row with state := newState } else row }

/-- `update_bundle_stats` with both counters given. -/
def updateBundleStats (st : Store) (bundleId : String) (bytesSent chunksRetransmitted : Nat) :
    Store :=
  { st with bundles := st.bundles.mapVal fun b row => if b = bundleId then
      { row with bytesSent := bytesSent, chunksRetransmitted := chunksRetransmitted } else row }

/-- `list_bundles_by_state`: the bundle ids and rows in `state`, newest first. -/
def listBundlesByState (st : Store) (state : String) : List (String × BundleRow) :=
  (st.bundles.entries.filter fun e => e.2.state = state).reverse

/-- `save_chunks_bulk`: `INSERT OR REPLACE INTO chunks`, one row per record, in order. -/
def saveChunksBulk (st : Store) (chunks : List ChunkRecord) : Store :=
  { st with chunks := chunks.foldl (fun t c =>
      (t.erase (c.bundleId, c.chunkId)).insert (c.bundleId, c.chunkId) c) st.chunks }

/-- A `chunks` row is there after `save_chunks_bulk` when it was before or one of the saved
    rows has its key. -/
theorem isSome_saveChunksBulk (st : Store) (chunks : List ChunkRecord) (key : String × Nat) :
    ((st.saveChunksBulk chunks).chunks.get? key).isSome ↔
      (st.chunks.get? key).isSome ∨ ∃ c ∈ chunks, (c.bundleId, c.chunkId) = key := by
  suffices ∀ t : Dict (String × Nat) ChunkRecord, ((chunks.foldl (fun t c =>
      (t.erase (c.bundleId, c.chunkId)).insert (c.bundleId, c.chunkId) c) t).get? key).isSome ↔
      (t.get? key).isSome ∨ ∃ c ∈ chunks, (c.bundleId, c.chunkId) = key from this st.chunks
  induction chunks with
  | nil => simp
  | cons c cs ih =>
    intro t
    rw [List.foldl_cons, ih, Dict.get?_insert, Dict.get?_erase]
    by_cases hk : key = (c.bundleId, c.chunkId)
    · rw [if_pos hk]
      exact iff_of_true (Or.inl rfl) (Or.inr ⟨c, List.mem_cons_self _ _, hk.symm⟩)
    · rw [if_neg hk, if_neg hk]
      constructor
      · rintro (h | ⟨d, hd, he⟩)
        · exact Or.inl h
        · exact Or.inr ⟨d, List.mem_cons_of_mem _ hd, he⟩
      · rintro (h | ⟨d, hd, he⟩)
        · exact Or.inl h
        · rcases List.mem_cons.mp hd with rfl | hd
          · exact absurd he.symm hk
          · exact Or.inr ⟨d, hd, he⟩

/-- `save_chunk`. -/
def saveChunk (st : Store) (chunk : ChunkRecord) : Store := st.saveChunksBulk [chunk]

/-- `save_custody_record`: `INSERT OR REPLACE INTO custody_records`. -/
def saveCustodyRecord (st : Store) (record : CustodyRecord) : Store :=
  { st with custody := (st.custody.erase record.bundleId).insert record.bundleId record }

/-- `delete_bundle`: the bundle's chunk rows, its custody row and its bundle row go. -/
def deleteBundle (st : Store) (bundleId : String) : Store :=
  { bundles := st.bundles.erase bundleId
    chunks := st.chunks.filter fun key _ => decide (key.1 ≠ bundleId)
    custody := st.custody.erase bundleId }

/-- `cleanup_expired_bundles`: every bundle whose age in seconds, `age b` by SQLite's clock,
    exceeds its `ttl`, deleted as `delete_bundle` deletes it. -/
def cleanupExpiredBundles (st : Store) (age : String → ℚ) : Store :=
  ((st.bundles.entries.filter fun e => e.2.ttl < age e.1).map Prod.fst).foldl deleteBundle st

/-- `load_chunks_for_bundle`: the bundle's rows ordered by `chunk_id`. -/
def loadChunksForBundle (st : Store) (bundleId : String) : List ChunkRecord :=
  ((st.chunks.entries.filter fun e => e.1.1 = bundleId).map Prod.snd).insertionSort
    fun a b => a.chunkId ≤ b.chunkId

end Store

/-- `{c["chunk_id"]: c for c in chunks}`. -/
def chunkDict (chunks : List ChunkRecord) : Dict Nat ChunkRecord :=
  chunks.foldl (fun d c => d.insert c.chunkId c) ∅

end Courier
