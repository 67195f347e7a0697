import MsgpackRpc.Lib.Unpack
import MsgpackRpc.Protocol

/-!
# The MessagePack format

A decoder and an encoder for the nil, boolean, integer, string, binary, array and map formats of
MessagePack, the formats of the objects that occur in concrete runs of the handlers. Floating-point
and extension types are not decoded. The handlers take the byte format as a parameter; this module
is the value of that parameter in their examples.
-/

namespace MsgpackRpc.Format

open Unpack

/-- The result of reading one object from the front of a byte string. -/
inductive Parse (α : Type) where
  | more
  | bad
  | done (a : α) (rest : List UInt8)
  deriving DecidableEq

/-- The value of a big-endian byte string. -/
def beNat (bs : List UInt8) : Nat := bs.foldl (fun n b => n * 256 + b.toNat) 0

/-- Reads the `n` bytes of a fixed-length field. -/
def field (n : Nat) (bs : List UInt8) : Parse (List UInt8) :=
  if bs.length < n then .more else .done (bs.take n) (bs.drop n)

/-- Continues after a field that has been read. -/
def Parse.andThen {α γ : Type} (p : Parse α) (k : α → List UInt8 → Parse γ) : Parse γ :=
  match p with
  | .more => .more
  | .bad => .bad
  | .done a rest => k a rest

/-- An unsigned big-endian integer of `n` bytes. -/
def uint (n : Nat) (bs : List UInt8) : Parse Object :=
  (field n bs).andThen fun v rest => .done (.integer (beNat v)) rest

/-- A signed big-endian integer of `n` bytes, in two's complement. -/
def sint (n : Nat) (bs : List UInt8) : Parse Object :=
  (field n bs).andThen fun v rest =>
    let k := beNat v
    .done (.integer (if k < 256 ^ n / 2 then k else (k : Int) - 256 ^ n)) rest

/-- The bytes of a string or binary whose length has `n` bytes. -/
def raw (mk : List UInt8 → Object) (n : Nat) (bs : List UInt8) : Parse Object :=
  (field n bs).andThen fun len rest =>
    (field (beNat len) rest).andThen fun v rest => .done (mk v) rest

/-- What the first byte of an object says: the object itself, or what follows. A number is that of
the bytes of an integer, of a length, or of elements. -/
inductive Head where
  | nil
  | boolean (b : Bool)
  | integer (n : Int)
  | uint (bytes : Nat)
  | sint (bytes : Nat)
  | fixStr (len : Nat)
  | str (bytes : Nat)
  | bin (bytes : Nat)
  | fixArray (len : Nat)
  | array (bytes : Nat)
  | fixMap (len : Nat)
  | map (bytes : Nat)
  | other

/-- The first byte of an object. -/
def head (b : UInt8) : Head :=
  if b < 0x80 then .integer b.toNat
  else if b < 0x90 then .fixMap (b.toNat - 0x80)
  else if b < 0xa0 then .fixArray (b.toNat - 0x90)
  else if b < 0xc0 then .fixStr (b.toNat - 0xa0)
  else if 0xe0 ≤ b then .integer ((b.toNat : Int) - 256)
  else match b.toNat with
    | 0xc0 => .nil
    | 0xc2 => .boolean false
    | 0xc3 => .boolean true
    | 0xc4 => .bin 1
    | 0xc5 => .bin 2
    | 0xc6 => .bin 4
    | 0xcc => .uint 1
    | 0xcd => .uint 2
    | 0xce => .uint 4
    | 0xcf => .uint 8
    | 0xd0 => .sint 1
    | 0xd1 => .sint 2
    | 0xd2 => .sint 4
    | 0xd3 => .sint 8
    | 0xd9 => .str 1
    | 0xda => .str 2
    | 0xdb => .str 4
    | 0xdc => .array 2
    | 0xdd => .array 4
    | 0xde => .map 2
    | 0xdf => .map 4
    | _ => .other

mutual

/-- Reads one object. The first argument bounds the nesting and the number of elements. -/
def object : Nat → List UInt8 → Parse Object
  | 0, _ => .more
  | _ + 1, [] => .more
  | fuel + 1, b :: bs =>
    match head b with
    | .nil => .done .nil bs
    | .boolean v => .done (.boolean v) bs
    | .integer n => .done (.integer n) bs
    | .uint n => uint n bs
    | .sint n => sint n bs
    | .fixStr n => (field n bs).andThen fun v rest => .done (.str v) rest
    | .str n => raw .str n bs
    | .bin n => raw (.bin .zone) n bs
    | .fixArray n => elements fuel n bs
    | .array n => (field n bs).andThen fun len rest => elements fuel (beNat len) rest
    | .fixMap n => pairs fuel n bs
    | .map n => (field n bs).andThen fun len rest => pairs fuel (beNat len) rest
    | .other => .bad

/-- Reads the `n` elements of an array. -/
def elements : Nat → Nat → List UInt8 → Parse Object
  | _, 0, bs => .done (.array []) bs
  | 0, _ + 1, _ => .more
  | fuel + 1, n + 1, bs =>
    (object fuel bs).andThen fun x rest =>
      (elements fuel n rest).andThen fun xs rest =>
        match xs with
        | .array xs => .done (.array (x :: xs)) rest
        | _ => .bad

/-- Reads the `n` pairs of a map. -/
def pairs : Nat → Nat → List UInt8 → Parse Object
  | _, 0, bs => .done (.map []) bs
  | 0, _ + 1, _ => .more
  | fuel + 1, n + 1, bs =>
    (object fuel bs).andThen fun k rest =>
      (object fuel rest).andThen fun v rest =>
        (pairs fuel n rest).andThen fun kvs rest =>
          match kvs with
          | .map kvs => .done (.map ((k, v) :: kvs)) rest
          | _ => .bad

end

/-- The decoder of the format. Each level of nesting and each element takes a byte, so twice the
number of bytes bounds the recursion. -/
def decoder : Decoder UInt8 Object where
  scan bs :=
    match object (2 * bs.length + 1) bs with
    | .more => .more
    | .done o [] => .done o
    | .done _ (_ :: _) | .bad => .bad

/-! ## The length of an encoding -/

mutual

/-- The number of objects in an object. -/
def size : Object → Nat
  | .array xs => 1 + sizeList xs
  | .map kvs => 1 + sizePairs kvs
  | .nil | .boolean _ | .integer _ | .float _ | .str _ | .bin _ _ | .ext _ _ => 1

/-- The number of objects in the elements of an array. -/
def sizeList : List Object → Nat
  | [] => 0
  | x :: xs => size x + sizeList xs

/-- The number of objects in the pairs of a map. -/
def sizePairs : List (Object × Object) → Nat
  | [] => 0
  | (k, v) :: kvs => size k + size v + sizePairs kvs

end

mutual

/-- A bound on the bytes of an object: a first byte, at most eight bytes of a number or a length,
and the contents. -/
def bound : Object → Nat
  | .str s | .bin _ s => 9 + s.length
  | .array xs => 9 + boundList xs
  | .map kvs => 9 + boundPairs kvs
  | .nil | .boolean _ | .integer _ | .float _ | .ext _ _ => 9

/-- A bound on the bytes of the elements of an array. -/
def boundList : List Object → Nat
  | [] => 0
  | x :: xs => bound x + boundList xs

/-- A bound on the bytes of the pairs of a map. -/
def boundPairs : List (Object × Object) → Nat
  | [] => 0
  | (k, v) :: kvs => bound k + bound v + boundPairs kvs

end

/-- The number of bytes of the number or length that follows the first byte. -/
def Head.bytes : Head → Nat
  | .uint n | .sint n | .str n | .bin n | .array n | .map n => n
  | _ => 0

theorem head_bytes (b : UInt8) : (head b).bytes ≤ 8 := by
  rw [head]
  repeat' split
  all_goals simp [Head.bytes]

theorem andThen_eq_done {α γ : Type} {p : Parse α} {k : α → List UInt8 → Parse γ} {c : γ}
    {rest : List UInt8} (h : p.andThen k = .done c rest) :
    ∃ a mid, p = .done a mid ∧ k a mid = .done c rest := by
  cases p with
  | more => cases h
  | bad => cases h
  | done a mid => exact ⟨a, mid, rfl, h⟩

theorem field_length {n : Nat} {bs v rest : List UInt8} (h : field n bs = .done v rest) :
    v.length = n ∧ bs.length = n + rest.length := by
  unfold field at h
  split at h
  · cases h
  · injection h with hv hr
    rw [← hv, ← hr, List.length_take, List.length_drop]
    omega

/-- The object `o` takes `bs` up to `rest`: a byte for each object in it, and no more than its
bound. -/
structure Takes (bs : List UInt8) (o : Object) (rest : List UInt8) : Prop where
  size_le : size o + rest.length ≤ bs.length
  le_bound : bs.length ≤ bound o + rest.length

theorem raw_takes {mk : List UInt8 → Object}
    (hmk : ∀ v, size (mk v) = 1 ∧ bound (mk v) = 9 + v.length) {n : Nat} (hn : n ≤ 8) (b : UInt8)
    {bs rest : List UInt8} {o : Object} (h : raw mk n bs = .done o rest) :
    Takes (b :: bs) o rest := by
  obtain ⟨len, mid, h1, h2⟩ := andThen_eq_done h
  obtain ⟨v, mid', h3, h4⟩ := andThen_eq_done h2
  injection h4 with ho hr
  subst ho hr
  have hlen := field_length h1
  have hv := field_length h3
  have := hmk v
  constructor <;> rw [List.length_cons] <;> omega

theorem int_takes {n : Nat} (hn : n ≤ 8) (b : UInt8) {bs rest : List UInt8} {o : Object}
    (h : uint n bs = .done o rest ∨ sint n bs = .done o rest) : Takes (b :: bs) o rest := by
  rcases h with h | h <;>
  · obtain ⟨v, mid, h1, h2⟩ := andThen_eq_done h
    injection h2 with ho hr
    subst ho hr
    have hv := field_length h1
    constructor <;> rw [List.length_cons] <;> simp only [size, bound] <;> omega

/-- An object that its first byte gives whole. -/
theorem first_takes {b : UInt8} {bs rest : List UInt8} {o o' : Object} (hs : size o = 1)
    (hb : bound o = 9) (h : Parse.done o bs = .done o' rest) : Takes (b :: bs) o' rest := by
  injection h with ho hr
  subst ho hr
  constructor <;> rw [List.length_cons] <;> omega

/-- The elements of an array or map take `bs` up to `rest`, its first byte and its length apart. -/
structure TakesElements (bs : List UInt8) (o : Object) (rest : List UInt8) : Prop where
  size_le : size o + rest.length ≤ bs.length + 1
  le_bound : bs.length + 9 ≤ bound o + rest.length

theorem TakesElements.takes {n : Nat} (hn : n ≤ 8) {b : UInt8} {bs mid rest : List UInt8}
    {o : Object} (h : TakesElements mid o rest) (hlen : bs.length = n + mid.length) :
    Takes (b :: bs) o rest := by
  have h1 := h.size_le
  have h2 := h.le_bound
  constructor <;> rw [List.length_cons] <;> omega

theorem takesElements_nil {bs rest : List UInt8} {o o' : Object} (hs : size o = 1)
    (hb : bound o = 9) (h : Parse.done o bs = .done o' rest) : TakesElements bs o' rest := by
  injection h with ho hr
  subst ho hr
  constructor <;> omega

/-- The bytes that reading an object takes, and reading the elements of an array or map. -/
theorem object_takes (fuel : Nat) :
    (∀ bs o rest, object fuel bs = .done o rest → Takes bs o rest) ∧
    (∀ n bs o rest, elements fuel n bs = .done o rest → TakesElements bs o rest) ∧
    (∀ n bs o rest, pairs fuel n bs = .done o rest → TakesElements bs o rest) := by
  induction fuel with
  | zero =>
    refine ⟨fun bs o rest h => by simp [object] at h, ?_, ?_⟩
    · intro n bs o rest h
      cases n with
      | zero => exact takesElements_nil rfl rfl (by simpa only [elements] using h)
      | succ n => simp [elements] at h
    · intro n bs o rest h
      cases n with
      | zero => exact takesElements_nil rfl rfl (by simpa only [pairs] using h)
      | succ n => simp [pairs] at h
  | succ fuel ih =>
    obtain ⟨iho, ihe, ihp⟩ := ih
    refine ⟨?_, ?_, ?_⟩
    · intro bs o rest h
      cases bs with
      | nil => simp [object] at h
      | cons b bs =>
        simp only [object] at h
        have hb := head_bytes b
        generalize head b = hd at h hb
        cases hd with
        | nil | boolean | integer => exact first_takes rfl rfl h
        | uint => exact int_takes hb b (.inl h)
        | sint => exact int_takes hb b (.inr h)
        | fixStr =>
          obtain ⟨v, mid, h1, h2⟩ := andThen_eq_done h
          injection h2 with ho hr
          subst ho hr
          have hv := field_length h1
          constructor <;> rw [List.length_cons] <;> simp only [size, bound] <;> omega
        | str | bin => exact raw_takes (fun _ => ⟨rfl, rfl⟩) hb b h
        | fixArray => exact (ihe _ _ _ _ h).takes (Nat.zero_le 8) (Nat.zero_add _).symm
        | array =>
          obtain ⟨v, mid, h1, h2⟩ := andThen_eq_done h
          exact (ihe _ _ _ _ h2).takes hb (field_length h1).2
        | fixMap => exact (ihp _ _ _ _ h).takes (Nat.zero_le 8) (Nat.zero_add _).symm
        | map =>
          obtain ⟨v, mid, h1, h2⟩ := andThen_eq_done h
          exact (ihp _ _ _ _ h2).takes hb (field_length h1).2
        | other => cases h
    · intro n bs o rest h
      cases n with
      | zero => exact takesElements_nil rfl rfl (by simpa only [elements] using h)
      | succ n =>
        simp only [elements] at h
        obtain ⟨x, mid, h1, h2⟩ := andThen_eq_done h
        obtain ⟨xs, mid', h3, h4⟩ := andThen_eq_done h2
        obtain ⟨hx, hx'⟩ := iho _ _ _ h1
        obtain ⟨hxs, hxs'⟩ := ihe _ _ _ _ h3
        split at h4
        · injection h4 with ho hr
          subst ho hr
          simp only [size, bound] at hxs hxs'
          constructor <;> simp only [size, sizeList, bound, boundList] <;> omega
        · cases h4
    · intro n bs o rest h
      cases n with
      | zero => exact takesElements_nil rfl rfl (by simpa only [pairs] using h)
      | succ n =>
        simp only [pairs] at h
        obtain ⟨k, mid, h1, h2⟩ := andThen_eq_done h
        obtain ⟨v, mid', h3, h4⟩ := andThen_eq_done h2
        obtain ⟨kvs, mid'', h5, h6⟩ := andThen_eq_done h4
        obtain ⟨hk, hk'⟩ := iho _ _ _ h1
        obtain ⟨hv, hv'⟩ := iho _ _ _ h3
        obtain ⟨hkvs, hkvs'⟩ := ihp _ _ _ _ h5
        split at h6
        · injection h6 with ho hr
          subst ho hr
          simp only [size, bound] at hkvs hkvs'
          constructor <;> simp only [size, sizePairs, bound, boundPairs] <;> omega
        · cases h6

/-- **A byte string that decodes to an object** has a byte for each object in it, and is no longer
than the object's bound. -/
theorem takes_of_scan {bs : List UInt8} {o : Object} (h : decoder.scan bs = .done o) :
    Takes bs o [] := by
  simp only [decoder] at h
  split at h
  · cases h
  · next heq =>
    injection h with h
    subst h
    exact (object_takes _).1 _ _ _ heq
  · cases h
  · cases h

/-! ## Encoding -/

/-- The `n` bytes of a number, most significant first. -/
def beBytes : Nat → Nat → List UInt8
  | 0, _ => []
  | n + 1, k => beBytes n (k / 256) ++ [UInt8.ofNat (k % 256)]

/-- The shortest header for a length: in the first byte below `fix`, else in 1, 2 or 4 bytes. An
array or map has no 1-byte form (`b1 = none`). -/
def header (fixBase : Nat) (fix : Nat) (b1 : Option UInt8) (b2 b4 : UInt8) (n : Nat) :
    List UInt8 :=
  match b1 with
  | some b =>
    if n < fix then [UInt8.ofNat (fixBase + n)]
    else if n < 256 then b :: beBytes 1 n
    else if n < 65536 then b2 :: beBytes 2 n
    else b4 :: beBytes 4 n
  | none =>
    if n < fix then [UInt8.ofNat (fixBase + n)]
    else if n < 65536 then b2 :: beBytes 2 n
    else b4 :: beBytes 4 n

/-- The shortest integer format. -/
def encodeInt (n : Int) : List UInt8 :=
  if 0 ≤ n then
    if n < 128 then [UInt8.ofNat n.toNat]
    else if n < 256 then 0xcc :: beBytes 1 n.toNat
    else if n < 65536 then 0xcd :: beBytes 2 n.toNat
    else if n < 4294967296 then 0xce :: beBytes 4 n.toNat
    else 0xcf :: beBytes 8 n.toNat
  else if -32 ≤ n then [UInt8.ofNat (n + 256).toNat]
  else if -128 ≤ n then 0xd0 :: beBytes 1 (n + 256).toNat
  else if -32768 ≤ n then 0xd1 :: beBytes 2 (n + 65536).toNat
  else if -2147483648 ≤ n then 0xd2 :: beBytes 4 (n + 4294967296).toNat
  else 0xd3 :: beBytes 8 (n + 18446744073709551616).toNat

mutual

/-- The bytes that `msgpack::pack` writes for an object of these formats. -/
def encode : Object → List UInt8
  | .nil => [0xc0]
  | .boolean b => [if b then 0xc3 else 0xc2]
  | .integer n => encodeInt n
  | .str s => header 0xa0 32 (some 0xd9) 0xda 0xdb s.length ++ s
  | .bin _ s => header 0 0 (some 0xc4) 0xc5 0xc6 s.length ++ s
  | .array xs => header 0x90 16 none 0xdc 0xdd xs.length ++ encodeList xs
  | .map kvs => header 0x80 16 none 0xde 0xdf kvs.length ++ encodePairs kvs
  | .float _ | .ext _ _ => []

/-- The bytes of the elements of an array. -/
def encodeList : List Object → List UInt8
  | [] => []
  | x :: xs => encode x ++ encodeList xs

/-- The bytes of the pairs of a map. -/
def encodePairs : List (Object × Object) → List UInt8
  | [] => []
  | (k, v) :: kvs => encode k ++ encode v ++ encodePairs kvs

end

end MsgpackRpc.Format
