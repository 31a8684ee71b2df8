import NaiveRtc.Base.ByteIo

/-!
# Structures laid over raw bytes

Code that casts a pointer into a buffer to a packed structure reads and writes integers in
the byte order of the host, and turns them around with `htons`, `htonl`, `ntohs`, `ntohl`.

* `bytesAt` — a read through a pointer, which may leave the buffer.
* `ByteOrder.load`, `ByteOrder.store`, `ByteOrder.swap` — integers in memory, and the one
  conversion the four functions share.
* `swap_load`, `store_swap` — together they are big-endian, on every host.
-/

namespace NaiveRtc.HostMemory

open ByteIo

/-- `size` bytes read at `offset`; none when they are not all inside the buffer. -/
def bytesAt (data : List UInt8) (offset size : Nat) : Option (List UInt8) :=
  if offset + size ≤ data.length then some ((data.drop offset).take size) else none

theorem bytesAt_of_le {data : List UInt8} {offset size : Nat} (h : offset + size ≤ data.length) :
    bytesAt data offset size = some ((data.drop offset).take size) := if_pos h

theorem bytesAt_eq_none {data : List UInt8} {offset size : Nat} (h : data.length < offset + size) :
    bytesAt data offset size = none := if_neg (by omega)

/-- The byte order of the host. -/
inductive ByteOrder where
  | little
  | big
  deriving DecidableEq

namespace ByteOrder

/-- The bytes of an integer in an order. -/
def arrange : ByteOrder → List UInt8 → List UInt8
  | little, bytes => bytes.reverse
  | big, bytes => bytes

/-- An integer of `B` bytes read from memory. -/
def load (host : ByteOrder) (B : Nat) (bytes : List UInt8) : Nat :=
  readBigEndian B (host.arrange bytes)

/-- An integer of `B` bytes written to memory. -/
def store (host : ByteOrder) (B val : Nat) : List UInt8 :=
  host.arrange (writeBigEndian B val)

/-- `htons`, `ntohs` (`B = 2`), `htonl`, `ntohl` (`B = 4`). -/
def swap (host : ByteOrder) (B val : Nat) : Nat :=
  readBigEndian B (host.arrange (writeBigEndian B val))

variable (host : ByteOrder)

@[simp] theorem length_arrange (bytes : List UInt8) :
    (host.arrange bytes).length = bytes.length := by
  cases host
  · exact List.length_reverse
  · rfl

@[simp] theorem arrange_arrange (bytes : List UInt8) :
    host.arrange (host.arrange bytes) = bytes := by
  cases host
  · exact List.reverse_reverse bytes
  · rfl

@[simp] theorem length_store (B val : Nat) : (host.store B val).length = B := by
  simp [store]

theorem swap_load {B : Nat} {bytes : List UInt8} (hlen : bytes.length = B) :
    host.swap B (host.load B bytes) = readBigEndian B bytes := by
  have hback : writeBigEndian B (readBigEndian B (host.arrange bytes)) = host.arrange bytes :=
    writeBigEndian_read (by simpa using hlen)
  rw [swap, load, hback, arrange_arrange]

theorem store_swap (B val : Nat) : host.store B (host.swap B val) = writeBigEndian B val := by
  rw [store, swap, writeBigEndian_read (by simp), arrange_arrange]

end ByteOrder

end NaiveRtc.HostMemory
