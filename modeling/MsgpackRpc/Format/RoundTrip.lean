import MsgpackRpc.Format
import MsgpackRpc.Stream.Framing

/-!
# Encoding and decoding

What `encode` writes for an object that the formats can hold (`fits`) is read back as that object,
whatever comes after it, and no proper part of it is read as an object: it is a self-delimiting
encoding (`encodes_of_fits`). So the assumption on the byte format that the handlers' theorems make
is met by this one.

Reading is monotone in two ways. What has been read with some bound on the recursion is read with
every larger one, and what has been read of a byte string is read of every longer one
(`object_extends`). The second says that a part of an encoding cannot be read as anything.

A message of the protocol fits when the objects in it do (`fits_pack`), so `onReads_encode` says of
bytes, without an assumption on the format, what a stream handler has made of any part of them.
-/

namespace MsgpackRpc.Format

open Unpack

deriving instance DecidableEq for Head

/-! ## Objects that the formats can hold -/

mutual

/-- The integers of at most 64 bits, and the strings, binaries, arrays and maps of at most
2^32 - 1 bytes, elements or pairs. A binary that was read is stored in a zone. -/
def fits : Object → Bool
  | .nil | .boolean _ => true
  | .integer n => -2 ^ 63 ≤ n && n < 2 ^ 64
  | .str s => s.length < 2 ^ 32
  | .bin p s => p = .zone && s.length < 2 ^ 32
  | .array xs => xs.length < 2 ^ 32 && fitsList xs
  | .map kvs => kvs.length < 2 ^ 32 && fitsPairs kvs
  | .float _ | .ext _ _ => false

/-- The elements of an array fit. -/
def fitsList : List Object → Bool
  | [] => true
  | x :: xs => fits x && fitsList xs

/-- The pairs of a map fit. -/
def fitsPairs : List (Object × Object) → Bool
  | [] => true
  | (k, v) :: kvs => fits k && fits v && fitsPairs kvs

end

/-! ## Numbers and fields -/

theorem beNat_concat (bs : List UInt8) (b : UInt8) : beNat (bs ++ [b]) = beNat bs * 256 + b.toNat := by
  simp [beNat]

theorem length_beBytes (n k : Nat) : (beBytes n k).length = n := by
  induction n generalizing k with
  | zero => rfl
  | succ n ih => rw [beBytes, List.length_append, ih, List.length_singleton]

/-- The bytes of a number that has room in them are those of the number. -/
theorem beNat_beBytes {n k : Nat} (h : k < 256 ^ n) : beNat (beBytes n k) = k := by
  induction n generalizing k with
  | zero =>
    rw [Nat.pow_zero] at h
    rw [Nat.lt_one_iff.1 h]
    rfl
  | succ n ih =>
    have hdiv : k / 256 < 256 ^ n := by
      rw [Nat.pow_succ] at h
      omega
    have hmod : (UInt8.ofNat (k % 256)).toNat = k % 256 := by
      rw [UInt8.toNat_ofNat']
      omega
    rw [beBytes, beNat_concat, ih hdiv, hmod]
    omega

/-- A field that is there is read. -/
theorem field_append {n : Nat} {v : List UInt8} (h : v.length = n) (rest : List UInt8) :
    field n (v ++ rest) = .done v rest := by
  subst h
  rw [field, if_neg (by simp), List.take_left, List.drop_left]

theorem field_beBytes (n k : Nat) (rest : List UInt8) :
    field n (beBytes n k ++ rest) = .done (beBytes n k) rest :=
  field_append (length_beBytes n k) rest

theorem uint_beBytes {n k : Nat} (h : k < 256 ^ n) (rest : List UInt8) :
    uint n (beBytes n k ++ rest) = .done (.integer k) rest := by
  rw [uint, field_beBytes]
  simp only [Parse.andThen, beNat_beBytes h]

/-- A negative number is written in two's complement. -/
theorem sint_beBytes {n k : Nat} (h : k < 256 ^ n) (hneg : 256 ^ n / 2 ≤ k) (rest : List UInt8) :
    sint n (beBytes n k ++ rest) = .done (.integer ((k : Int) - 256 ^ n)) rest := by
  rw [sint, field_beBytes]
  simp only [Parse.andThen, beNat_beBytes h]
  rw [if_neg (Nat.not_lt.2 hneg)]

theorem raw_append (mk : List UInt8 → Object) {n : Nat} {v : List UInt8} (h : v.length < 256 ^ n)
    (rest : List UInt8) : raw mk n (beBytes n v.length ++ v ++ rest) = .done (mk v) rest := by
  rw [raw, List.append_assoc, field_beBytes]
  simp only [Parse.andThen, beNat_beBytes h]
  rw [field_append rfl]

/-! ## The first byte -/

theorem head_fixInt : ∀ k < 128, head (UInt8.ofNat k) = .integer k := by decide

theorem head_negative : ∀ k < 32, head (UInt8.ofNat (224 + k)) = .integer ((k : Int) - 32) := by
  decide

theorem head_fixStr : ∀ n < 32, head (UInt8.ofNat (0xa0 + n)) = .fixStr n := by decide

theorem head_fixArray : ∀ n < 16, head (UInt8.ofNat (0x90 + n)) = .fixArray n := by decide

theorem head_fixMap : ∀ n < 16, head (UInt8.ofNat (0x80 + n)) = .fixMap n := by decide

/-! ## Reading what was written -/

theorem object_encodeInt {n : Int} (h : fits (.integer n) = true) (fuel : Nat) (rest : List UInt8) :
    object (fuel + 1) (encodeInt n ++ rest) = .done (.integer n) rest := by
  simp only [fits, Bool.and_eq_true, decide_eq_true_eq] at h
  obtain ⟨hlo, hhi⟩ := h
  unfold encodeInt
  split
  · next hpos =>
    obtain ⟨k, rfl⟩ := Int.eq_ofNat_of_zero_le hpos
    simp only [Int.toNat_natCast]
    split
    · next hk =>
      simp only [List.singleton_append, object, head_fixInt k (by omega)]
    split
    · exact uint_beBytes (by omega) rest
    split
    · exact uint_beBytes (by omega) rest
    split
    · exact uint_beBytes (by omega) rest
    · exact uint_beBytes (by omega) rest
  · next hneg =>
    split
    · next hk =>
      obtain ⟨k, hk32, hn⟩ : ∃ k : Nat, k < 32 ∧ n = (k : Int) - 32 := 
        ⟨(n + 32).toNat, by omega, by omega⟩
      have hbyte : (n + 256).toNat = 224 + k := by omega
      rw [hbyte, List.singleton_append, object]
      simp only [head_negative k hk32, hn]
    split
    · have hs := sint_beBytes (n := 1) (k := (n + 256).toNat) (by omega) (by omega) rest
      rw [show ((n + 256).toNat : Int) - 256 ^ 1 = n by omega] at hs
      exact hs
    split
    · have hs := sint_beBytes (n := 2) (k := (n + 65536).toNat) (by omega) (by omega) rest
      rw [show ((n + 65536).toNat : Int) - 256 ^ 2 = n by omega] at hs
      exact hs
    split
    · have hs := sint_beBytes (n := 4) (k := (n + 4294967296).toNat) (by omega) (by omega) rest
      rw [show ((n + 4294967296).toNat : Int) - 256 ^ 4 = n by omega] at hs
      exact hs
    · have hs := sint_beBytes (n := 8) (k := (n + 18446744073709551616).toNat) (by omega) (by omega)
        rest
      rw [show ((n + 18446744073709551616).toNat : Int) - 256 ^ 8 = n by omega] at hs
      exact hs

theorem object_str {s : List UInt8} (h : s.length < 2 ^ 32) (fuel : Nat) (rest : List UInt8) :
    object (fuel + 1) (encode (.str s) ++ rest) = .done (.str s) rest := by
  rw [encode, header]
  split
  · next hfix =>
    simp only [List.cons_append, List.nil_append, object, head_fixStr _ hfix, field_append rfl,
      Parse.andThen]
  split
  · exact raw_append .str (n := 1) (by omega) rest
  split
  · exact raw_append .str (n := 2) (by omega) rest
  · exact raw_append .str (n := 4) (by omega) rest

theorem object_bin {s : List UInt8} (h : s.length < 2 ^ 32) (fuel : Nat) (rest : List UInt8) :
    object (fuel + 1) (encode (.bin .zone s) ++ rest) = .done (.bin .zone s) rest := by
  rw [encode, header]
  rw [if_neg (Nat.not_lt_zero _)]
  split
  · exact raw_append (.bin .zone) (n := 1) (by omega) rest
  split
  · exact raw_append (.bin .zone) (n := 2) (by omega) rest
  · exact raw_append (.bin .zone) (n := 4) (by omega) rest

/-- The header of an array, whose elements are read with what is left of the bound. -/
theorem object_array {n : Nat} (h : n < 2 ^ 32) (fuel : Nat) (rest : List UInt8) :
    object (fuel + 1) (header 0x90 16 none 0xdc 0xdd n ++ rest) = elements fuel n rest := by
  rw [header]
  split
  · next hfix =>
    simp only [List.cons_append, List.nil_append, object, head_fixArray _ hfix]
  split
  · have hb : (field 2 (beBytes 2 n ++ rest)).andThen
        (fun len rest => elements fuel (beNat len) rest) = elements fuel n rest := by
      rw [field_beBytes, Parse.andThen, beNat_beBytes (by omega)]
    exact hb
  · have hb : (field 4 (beBytes 4 n ++ rest)).andThen
        (fun len rest => elements fuel (beNat len) rest) = elements fuel n rest := by
      rw [field_beBytes, Parse.andThen, beNat_beBytes (by omega)]
    exact hb

/-- That of a map. -/
theorem object_map {n : Nat} (h : n < 2 ^ 32) (fuel : Nat) (rest : List UInt8) :
    object (fuel + 1) (header 0x80 16 none 0xde 0xdf n ++ rest) = pairs fuel n rest := by
  rw [header]
  split
  · next hfix =>
    simp only [List.cons_append, List.nil_append, object, head_fixMap _ hfix]
  split
  · have hb : (field 2 (beBytes 2 n ++ rest)).andThen
        (fun len rest => pairs fuel (beNat len) rest) = pairs fuel n rest := by
      rw [field_beBytes, Parse.andThen, beNat_beBytes (by omega)]
    exact hb
  · have hb : (field 4 (beBytes 4 n ++ rest)).andThen
        (fun len rest => pairs fuel (beNat len) rest) = pairs fuel n rest := by
      rw [field_beBytes, Parse.andThen, beNat_beBytes (by omega)]
    exact hb

theorem size_pos (o : Object) : 0 < size o := by
  cases o <;> simp only [size] <;> omega

mutual

/-- **Reading what was written**, with a bound on the recursion of twice the number of objects. -/
theorem object_encode : ∀ (o : Object) (fuel : Nat) (rest : List UInt8), fits o = true →
    2 * size o ≤ fuel + 1 → object fuel (encode o ++ rest) = .done o rest
  | .nil, fuel + 1, _, _, _ => rfl
  | .boolean true, fuel + 1, _, _, _ => rfl
  | .boolean false, fuel + 1, _, _, _ => rfl
  | .integer n, fuel + 1, rest, h, _ => object_encodeInt h fuel rest
  | .str s, fuel + 1, rest, h, _ => object_str (of_decide_eq_true h) fuel rest
  | .bin p s, fuel + 1, rest, h, _ => by
    simp only [fits, Bool.and_eq_true, decide_eq_true_eq] at h
    rw [h.1]
    exact object_bin h.2 fuel rest
  | .array xs, fuel + 1, rest, h, hsize => by
    simp only [fits, Bool.and_eq_true, decide_eq_true_eq] at h
    simp only [size] at hsize
    rw [encode, List.append_assoc, object_array h.1]
    exact elements_encode xs fuel rest h.2 (by omega)
  | .map kvs, fuel + 1, rest, h, hsize => by
    simp only [fits, Bool.and_eq_true, decide_eq_true_eq] at h
    simp only [size] at hsize
    rw [encode, List.append_assoc, object_map h.1]
    exact pairs_encode kvs fuel rest h.2 (by omega)
  | .float _, _, _, h, _ | .ext _ _, _, _, h, _ => by simp [fits] at h
  | o, 0, _, _, hsize => by
    have hpos := size_pos o
    omega

theorem elements_encode : ∀ (xs : List Object) (fuel : Nat) (rest : List UInt8),
    fitsList xs = true → 2 * sizeList xs ≤ fuel →
    elements fuel xs.length (encodeList xs ++ rest) = .done (.array xs) rest
  | [], fuel, rest, _, _ => by cases fuel <;> rfl
  | x :: xs, 0, _, _, hsize => by
    have hpos := size_pos x
    simp only [sizeList] at hsize
    omega
  | x :: xs, fuel + 1, rest, h, hsize => by
    have hpos := size_pos x
    simp only [fitsList, Bool.and_eq_true] at h
    simp only [sizeList] at hsize
    rw [encodeList, List.append_assoc, List.length_cons, elements,
      object_encode x fuel _ h.1 (by omega), Parse.andThen,
      elements_encode xs fuel rest h.2 (by omega), Parse.andThen]

theorem pairs_encode : ∀ (kvs : List (Object × Object)) (fuel : Nat) (rest : List UInt8),
    fitsPairs kvs = true → 2 * sizePairs kvs ≤ fuel →
    pairs fuel kvs.length (encodePairs kvs ++ rest) = .done (.map kvs) rest
  | [], fuel, rest, _, _ => by cases fuel <;> rfl
  | (k, v) :: kvs, 0, _, _, hsize => by
    have hpos := size_pos k
    simp only [sizePairs] at hsize
    omega
  | (k, v) :: kvs, fuel + 1, rest, h, hsize => by
    have hk := size_pos k
    have hv := size_pos v
    simp only [fitsPairs, Bool.and_eq_true] at h
    simp only [sizePairs] at hsize
    rw [encodePairs, List.append_assoc, List.append_assoc, List.length_cons, pairs,
      object_encode k fuel _ h.1.1 (by omega), Parse.andThen,
      object_encode v fuel _ h.1.2 (by omega), Parse.andThen,
      pairs_encode kvs fuel rest h.2 (by omega), Parse.andThen]

end

/-! ## Reading more -/

/-- A longer byte string and a larger bound do not change what has been read: once there is a
verdict, it is the same with `xs` left over as well. -/
def Settles {α : Type} (p p' : Parse α) (xs : List UInt8) : Prop :=
  (p = .bad → p' = .bad) ∧ ∀ a rest, p = .done a rest → p' = .done a (rest ++ xs)

theorem Settles.more {α : Type} {p' : Parse α} {xs : List UInt8} : Settles .more p' xs :=
  ⟨nofun, nofun⟩

theorem Settles.bad {α : Type} {xs : List UInt8} : Settles (α := α) .bad .bad xs :=
  ⟨fun _ => rfl, nofun⟩

theorem Settles.done {α : Type} (a : α) (bs xs : List UInt8) :
    Settles (.done a bs) (.done a (bs ++ xs)) xs := by
  refine ⟨nofun, ?_⟩
  intro a' rest h
  cases h
  rfl

theorem Settles.andThen {α γ : Type} {p p' : Parse α} {k k' : α → List UInt8 → Parse γ}
    {xs : List UInt8} (h : Settles p p' xs)
    (hk : ∀ a rest, Settles (k a rest) (k' a (rest ++ xs)) xs) :
    Settles (p.andThen k) (p'.andThen k') xs := by
  cases p with
  | more => exact .more
  | bad =>
    rw [h.1 rfl]
    exact .bad
  | done a rest =>
    rw [h.2 a rest rfl]
    exact hk a rest

theorem field_settles (n : Nat) (bs xs : List UInt8) :
    Settles (field n bs) (field n (bs ++ xs)) xs := by
  rw [field, field]
  by_cases hlen : bs.length < n
  · rw [if_pos hlen]
    exact .more
  · have hle := Nat.not_lt.1 hlen
    rw [if_neg hlen, if_neg (by rw [List.length_append]; omega), List.take_append_of_le_length hle,
      List.drop_append_of_le_length hle]
    exact .done _ _ _

theorem raw_settles (mk : List UInt8 → Object) (n : Nat) (bs xs : List UInt8) :
    Settles (raw mk n bs) (raw mk n (bs ++ xs)) xs :=
  (field_settles n bs xs).andThen fun _ _ => (field_settles _ _ xs).andThen fun _ _ => .done _ _ _

/-- **Once an object has been read**, or found not to be one, neither the bytes that follow nor a
larger bound changes the verdict. -/
theorem object_extends (xs : List UInt8) (fuel : Nat) :
    (∀ fuel' bs, fuel ≤ fuel' → Settles (object fuel bs) (object fuel' (bs ++ xs)) xs) ∧
    (∀ fuel' n bs, fuel ≤ fuel' → Settles (elements fuel n bs) (elements fuel' n (bs ++ xs)) xs) ∧
    (∀ fuel' n bs, fuel ≤ fuel' → Settles (pairs fuel n bs) (pairs fuel' n (bs ++ xs)) xs) := by
  induction fuel with
  | zero =>
    refine ⟨fun fuel' bs _ => .more, ?_, ?_⟩
    · intro fuel' n bs _
      cases n with
      | zero =>
        rw [elements, elements]
        exact .done _ _ _
      | succ n => exact .more
    · intro fuel' n bs _
      cases n with
      | zero =>
        rw [pairs, pairs]
        exact .done _ _ _
      | succ n => exact .more
  | succ fuel ih =>
    obtain ⟨iho, ihe, ihp⟩ := ih
    refine ⟨?_, ?_, ?_⟩ <;> intro fuel' <;> obtain _ | fuel' := fuel'
    · exact fun bs hle => absurd hle (Nat.not_succ_le_zero fuel)
    · intro bs hle
      have hle := Nat.le_of_succ_le_succ hle
      cases bs with
      | nil => exact .more
      | cons b bs =>
        rw [List.cons_append, object, object]
        cases head b with
        | nil | boolean | integer => exact .done _ _ _
        | uint | sint => exact (field_settles _ _ xs).andThen fun _ _ => .done _ _ _
        | fixStr => exact (field_settles _ _ xs).andThen fun _ _ => .done _ _ _
        | str | bin => exact raw_settles _ _ _ xs
        | fixArray => exact ihe _ _ _ hle
        | array => exact (field_settles _ _ xs).andThen fun _ _ => ihe _ _ _ hle
        | fixMap => exact ihp _ _ _ hle
        | map => exact (field_settles _ _ xs).andThen fun _ _ => ihp _ _ _ hle
        | other => exact .bad
    · exact fun n bs hle => absurd hle (Nat.not_succ_le_zero fuel)
    · intro n bs hle
      have hle := Nat.le_of_succ_le_succ hle
      cases n with
      | zero =>
        rw [elements, elements]
        exact .done _ _ _
      | succ n =>
        rw [elements, elements]
        refine (iho _ _ hle).andThen fun x rest => (ihe _ _ _ hle).andThen fun o rest => ?_
        cases o with
        | array => exact .done _ _ _
        | _ => exact .bad
    · exact fun n bs hle => absurd hle (Nat.not_succ_le_zero fuel)
    · intro n bs hle
      have hle := Nat.le_of_succ_le_succ hle
      cases n with
      | zero =>
        rw [pairs, pairs]
        exact .done _ _ _
      | succ n =>
        rw [pairs, pairs]
        refine (iho _ _ hle).andThen fun k rest => (iho _ _ hle).andThen fun v rest =>
          (ihp _ _ _ hle).andThen fun o rest => ?_
        cases o with
        | map => exact .done _ _ _
        | _ => exact .bad

/-! ## The encoding -/

theorem size_le_length_encode {o : Object} (h : fits o = true) : size o ≤ (encode o).length := by
  have hread := object_encode o (2 * size o) [] h (by omega)
  rw [List.append_nil] at hread
  exact ((object_takes _).1 _ _ _ hread).size_le

/-- What is read of the bytes of an object is the object, whatever the bound. -/
theorem object_encode_of_le {o : Object} (h : fits o = true) {fuel : Nat}
    (hfuel : 2 * (encode o).length ≤ fuel) : object fuel (encode o) = .done o [] := by
  have hsize := size_le_length_encode h
  have hread := object_encode o fuel [] h (by omega)
  rwa [List.append_nil] at hread

/-- **A proper part of the bytes of an object** is the start of one, and no object. -/
theorem scan_part {o : Object} (h : fits o = true) {p : List UInt8} (hp : p <+: encode o)
    (hne : p ≠ encode o) : decoder.scan p = .more := by
  obtain ⟨xs, hxs⟩ := hp
  have hlen : p.length ≤ (encode o).length := by rw [← hxs, List.length_append]; omega
  obtain ⟨hbad, hdone⟩ := (object_extends xs (2 * p.length + 1)).1
    (2 * (encode o).length + 1) p (by omega)
  rw [hxs, object_encode_of_le h (by omega)] at hbad hdone
  simp only [decoder]
  cases hread : object (2 * p.length + 1) p with
  | more => rfl
  | bad => cases hbad hread
  | done o' rest =>
    -- the object would end before the bytes do
    injection hdone o' rest hread with _ hrest
    obtain ⟨rfl, rfl⟩ := List.append_eq_nil_iff.1 hrest.symm
    rw [List.append_nil] at hxs
    exact absurd hxs hne

/-- **The bytes of an object that fits** are a self-delimiting encoding of it. -/
theorem encodes_of_fits {o : Object} (h : fits o = true) : Encodes decoder (encode o) o := by
  refine ⟨?_, ?_, fun p hp _ hne => scan_part h hp hne⟩
  · have hsize := size_le_length_encode h
    have hpos := size_pos o
    exact List.ne_nil_of_length_pos (by omega)
  · simp only [decoder, object_encode_of_le h (Nat.le_succ _)]

/-! ## Messages -/

/-- The objects of the user in a message. -/
def payload : Message → List Object
  | .request _ method params => [method, params]
  | .response _ result error => [result, error]
  | .notify method params => [method, params]

theorem fitsList_iff {xs : List Object} : fitsList xs = true ↔ ∀ x ∈ xs, fits x = true := by
  induction xs with
  | nil => simp [fitsList]
  | cons x xs ih => simp [fitsList, ih]

/-- The messages that the format has bytes for. -/
abbrev Fits (m : Message) : Prop := fits m.pack = true

/-- A message fits when its objects do: the type and the id always do. -/
theorem fits_pack (m : Message) : fits m.pack = true ↔ ∀ o ∈ payload m, fits o = true := by
  have harray (xs : List Object) (hlen : xs.length < 2 ^ 32) :
      fits (.array xs) = true ↔ ∀ x ∈ xs, fits x = true := by
    rw [fits, Bool.and_eq_true, decide_eq_true_eq, fitsList_iff]
    exact and_iff_right hlen
  have htype (t : MessageType) : fits (.integer t.toNat) = true := by
    have hlt := UInt8.toNat_lt t
    simp only [fits, Bool.and_eq_true, decide_eq_true_eq]
    omega
  have hid (i : MsgId) : fits (.integer i.toInt) = true := by
    have hlo := BitVec.le_toInt i
    have hhi := BitVec.toInt_lt (x := i)
    simp only [fits, Bool.and_eq_true, decide_eq_true_eq]
    omega
  cases m <;> rw [Message.pack, harray _ (by simp)] <;> simp [payload, htype, hid, and_comm]

open StreamHandler in
/-- **Reading any part of the bytes of messages**, none of which is larger than `maxMessageSize` and all of
which the receiver takes, cut in any way. The calls made are the first `n`
of the messages, the bytes are theirs and what the unpacker keeps of the next one, which is not
whole, and the handler waits for the next read and has raised nothing. -/
theorem onReads_encode (recv : Receiver) (msgs : List Message) (chunks : List (List UInt8))
    (hfits : ∀ m ∈ msgs, ∀ o ∈ payload m, fits o = true)
    (hsize : ∀ m ∈ msgs, (encode m.pack).length ≤ maxMessageSize)
    (hrecv : ∀ i, ∀ m ∈ msgs, recv i m = none) (hx : chunks.flatten <+: stream encode msgs) :
    let h := onReads decoder recv (start { isOpen := true }) chunks
    ∃ n, h.calls = msgs.take n ∧ chunks.flatten = stream encode (msgs.take n) ++ h.pac.parsed ∧
      (∀ m, msgs[n]? = some m → h.pac.parsed <+: encode m.pack ∧ h.pac.parsed ≠ encode m.pack) ∧
      h.pac.received = [] ∧ h.reads = 1 ∧ h.isOpen = true ∧ h.raised = [] := by
  have henc : ∀ m ∈ msgs, Encodes decoder (encode m.pack) m.pack := fun m hm =>
    encodes_of_fits ((fits_pack m).2 (hfits m hm))
  obtain ⟨whole, part, hcut, hrun⟩ :=
    onReads_received henc hsize hrecv (h := start { isOpen := true }) rfl rfl chunks hx
  obtain ⟨rest, rfl⟩ := hcut.isPrefix
  have hwhole : ∀ m ∈ whole, Encodes decoder (encode m.pack) m.pack := fun m hm =>
    henc m (List.mem_append_left _ hm)
  -- the part completes no value
  have hpart : values decoder [] part = ([], some part) := by
    have hv := hcut.values henc
    rw [hcut.bytes, stream, values_append_of_some decoder
      (values_stream (fun m : Message => encode m.pack) hwhole)] at hv
    obtain ⟨hvals, hrest⟩ := Prod.mk.inj hv
    exact Prod.ext (List.append_cancel_left (hvals.trans (List.append_nil _).symm)) hrest
  refine ⟨whole.length, ?_⟩
  rw [hrun, List.take_left]
  refine ⟨rfl, hcut.bytes, ?_, rfl, rfl, rfl, rfl⟩
  intro m hm
  rw [List.getElem?_append_right (Nat.le_refl _), Nat.sub_self] at hm
  obtain ⟨tl, rfl⟩ : ∃ tl, rest = m :: tl :=
    ⟨_, (List.cons_head?_tail (List.head?_eq_getElem? ▸ hm)).symm⟩
  have hm' := henc m (by simp)
  have hp : part <+: encode m.pack ++ stream encode tl := by
    rw [hcut.bytes] at hx
    simpa [stream, List.prefix_append_right_inj] using hx
  have hnot : ¬ encode m.pack <+: part := by
    rintro ⟨t, rfl⟩
    rw [values_append_of_some decoder hm'.values_whole] at hpart
    cases (Prod.mk.inj hpart).1
  refine ⟨?_, fun he => hnot (he ▸ List.prefix_refl _)⟩
  refine (List.prefix_or_prefix_of_prefix hp (List.prefix_append _ _)).resolve_right hnot

/-- A response and most of a notification, in three reads that cut both. -/
theorem onReads_encode_client :
    let h := StreamHandler.onReads decoder (Tcp.ClientSocket.receiver fun _ => true)
      (StreamHandler.start { isOpen := true })
      [[0x94, 0x01], [0x01, 0xc0, 0x07, 0x93], [0x02, 0xa1, 0x61]]
    ∃ n, h.calls =
        [Message.response 1 (.integer 7) .nil, .notify (.str [0x61]) (.array [])].take n ∧
      h.pac.received = [] := by
  obtain ⟨n, hcalls, -, -, hrec, -⟩ := onReads_encode
    (Tcp.ClientSocket.receiver fun _ => true)
    [.response 1 (.integer 7) .nil, .notify (.str [0x61]) (.array [])]
    [[0x94, 0x01], [0x01, 0xc0, 0x07, 0x93], [0x02, 0xa1, 0x61]]
    (by decide) (by decide) (by simp [Tcp.ClientSocket.receiver, clientReceiver]) (by decide)
  exact ⟨n, hcalls, hrec⟩

end MsgpackRpc.Format
