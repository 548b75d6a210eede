import BoilerplateExpress.Http.Range
import BoilerplateExpress.OrderedMap

/-!
# Objects in memory

The objects of `upload/storage/memory.provider.ts`: writing one, its metadata, and a stream
over an interval of its bytes. The hexadecimal SHA-256 of a buffer is a parameter.
-/
namespace BoilerplateExpress.Upload

open EventStream (units)
open Http (ByteRange maxSafeInteger)
open List

variable {sha256 : Bytes → JsString}

/-- A stored object. A `Buffer` has a length that is a safe integer. -/
structure StoredBlob (sha256 : Bytes → JsString) where
  contentType : JsString
  bytes : Bytes
  etag : JsString
  storedAt : ℤ
  etag_eq : etag = 34 :: sha256 bytes ++ [34]
  length_le : bytes.length ≤ maxSafeInteger

structure ObjectStat where
  key : JsString
  size : ℕ
  contentType : JsString
  etag : JsString
  lastModified : ℤ

/-- What `openRange` throws; a `RangeError` by its text. -/
inductive OpenError where
  | app (error : AppError)
  | range (message : JsString)

def chunkBytes : ℕ := 64 * 1024

/-- The generator behind a stream, from an offset on. A turn adds a chunk of one byte at
least, so the length of the slice bounds the turns. -/
def chunks (slice : Bytes) : ℕ → ℕ → List Bytes
  | 0, _ => []
  | turns + 1, offset =>
    if offset < slice.length then
      (slice.take (min (offset + chunkBytes) slice.length)).drop offset ::
        chunks slice turns (offset + chunkBytes)
    else []

/-- The bytes of an inclusive interval. -/
def slice (bytes : Bytes) (range : ByteRange) : Bytes :=
  (bytes.take (range.stop + 1)).drop range.start

structure MemoryStorage (sha256 : Bytes → JsString) where
  objects : OrderedMap JsString (StoredBlob sha256) := OrderedMap.empty

namespace MemoryStorage

def store (storage : MemoryStorage sha256) (now : ℤ) (key : JsString)
    (buffer : { b : Bytes // b.length ≤ maxSafeInteger }) (contentType : JsString) :
    MemoryStorage sha256 :=
  { storage with
    objects := storage.objects.set key
      { contentType
        bytes := buffer.1
        etag := 34 :: sha256 buffer.1 ++ [34]
        storedAt := now
        etag_eq := rfl
        length_le := buffer.2 } }

def stat (storage : MemoryStorage sha256) (key : JsString) : Option ObjectStat :=
  (storage.objects.get key).map fun blob =>
    { key
      size := blob.bytes.length
      contentType := blob.contentType
      etag := blob.etag
      lastModified := blob.storedAt }

/-- The chunks of the stream over an interval. The start is a natural number, so the check
that it is not negative is left out. -/
def openRange (storage : MemoryStorage sha256) (key : JsString) (range : ByteRange)
    (ifMatch : JsString) : Except OpenError (List Bytes) :=
  match storage.objects.get key with
  | none => .error (.app ⟨404, "No object stored under that key", some "OBJECT_NOT_FOUND", []⟩)
  | some blob =>
    if blob.etag ≠ ifMatch then
      .error (.app ⟨412, "The object changed while being read", some "REPRESENTATION_CHANGED", []⟩)
    else if blob.bytes.length ≤ range.stop || range.stop < range.start then
      .error (.range (units "openRange: [" ++ JsString.natUnits range.start ++ units ", " ++
        JsString.natUnits range.stop ++ units "] is outside a " ++
        JsString.natUnits blob.bytes.length ++ units "-byte object"))
    else
      let part := slice blob.bytes range
      .ok (chunks part part.length 0)

end MemoryStorage

lemma flatten_chunks {offset turns} {slice} (h : slice.length ≤ offset + turns) :
    (chunks slice turns offset).flatten = slice.drop offset := by
  induction turns generalizing offset with
  | zero => rw [chunks, flatten_nil, drop_of_length_le (by omega)]
  | succ turns ih =>
    rw [chunks]
    split_ifs with hmore
    · have hnext : slice.length ≤ offset + chunkBytes + turns := by
        rw [chunkBytes]
        omega
      have htake : slice.take (min (offset + chunkBytes) slice.length) =
          slice.take (offset + chunkBytes) := by
        rw [take_eq_take_iff]
        omega
      rw [flatten_cons, ih hnext, htake, drop_take, Nat.add_sub_cancel_left,
        ← drop_drop, take_append_drop]
    · rw [flatten_nil, drop_of_length_le (by omega)]

end BoilerplateExpress.Upload
