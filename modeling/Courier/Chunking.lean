import Courier.Store

/-
  Courier: splitting a file into chunks and the XOR parity of a block (`send_engine.py`).

  `createChunks` is `_create_chunks`: data chunks `0 … D - 1` of `chunk_size` bytes (the last
  one shorter), then, under FEC, `r` copies of the XOR parity of each block of `k` data chunks
  (`generateFecChunks`). `xorInto` is the loop body shared by `_xor_chunks` and the receiver's
  `_xor_bytes`: a byte-wise XOR over the common prefix, then the longer operand's tail.
  `chunk_size = 0` makes Python divide by zero, so `createChunks` is `none` there.
-/

namespace Courier

/-- XOR `payload` into `result` over their common length, then append the tail of `payload`
    beyond `result`. -/
def xorInto (result payload : Bytes) : Bytes :=
  List.zipWith (· ^^^ ·) result payload ++ result.drop payload.length ++
    payload.drop result.length

/-- `_xor_chunks`: the first payload with every later one XORed into it. -/
def xorChunks : List ChunkRecord → Bytes
  | [] => []
  | c :: cs => cs.foldl (fun result chunk => xorInto result chunk.payload) c.payload

/-- `_generate_fec_chunks`: for each block of `k` data chunks, `r` parity chunks carrying the
    block's XOR, numbered after the data chunks. -/
def generateFecChunks (fec : FECConfig) (dataChunks : List ChunkRecord) (bundleId : String) :
    List ChunkRecord :=
  if fec.k = 0 ∨ fec.r = 0 then []
  else
    let numDataChunks := dataChunks.length
    (List.range ((numDataChunks + fec.k - 1) / fec.k)).flatMap fun blockId =>
      let parityData := xorChunks ((dataChunks.drop (blockId * fec.k)).take fec.k)
      (List.range fec.r).map fun parityIdx =>
        { bundleId, chunkId := numDataChunks + blockId * fec.r + parityIdx, isParity := true,
          blockId, k := fec.k, r := fec.r, payload := parityData, checksum := crc32 parityData }

/-- The data chunk `i` of a file. -/
def dataChunk (cfg : TransferConfig) (fec : FECConfig) (fileData : Bytes) (bundleId : String)
    (fecEnabled : Bool) (i : Nat) : ChunkRecord :=
  let start := i * cfg.chunkSize
  let payload := (fileData.drop start).take (min (start + cfg.chunkSize) fileData.length - start)
  { bundleId, chunkId := i, isParity := false,
    blockId := if fecEnabled && decide (fec.k > 0) then i / fec.k else 0,
    k := if fecEnabled then fec.k else 0, r := if fecEnabled then fec.r else 0,
    payload, checksum := crc32 payload }

/-- `_create_chunks(file_path, bundle_id, fec_enabled)` on the file's bytes. -/
def createChunks (cfg : TransferConfig) (fec : FECConfig) (fileData : Bytes) (bundleId : String)
    (fecEnabled : Bool) : Option (List ChunkRecord) :=
  if cfg.chunkSize = 0 then none
  else
    let numDataChunks := (fileData.length + cfg.chunkSize - 1) / cfg.chunkSize
    let chunks := (List.range numDataChunks).map (dataChunk cfg fec fileData bundleId fecEnabled)
    if fecEnabled && fec.enabled && decide (fec.k > 0) && decide (fec.r > 0) then
      some (chunks ++ generateFecChunks fec chunks bundleId)
    else some chunks

end Courier
