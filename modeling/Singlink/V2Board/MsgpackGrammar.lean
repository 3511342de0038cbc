import Singlink.V2Board.Msgpack
import Mathlib.Data.List.Forall2
/-!
# What `decodeMsgpack` accepts

With an `int` without bounds the decoder accepts exactly the MessagePack forms of
documents that keep its limits, and returns the value of the document. With Go's
`int` it does the same, unless it comes to a length whose end is no `int` any more.
-/

namespace Singlink.V2Board

open Lib Lib.Codec Lib.Msgpack List Except

/-! ## The value of a document -/

mutual

/-- The value behind an `any`, for a decoder that makes `number n` of an integer. -/
def anyOf (number : Int → GoAny) : Doc → GoAny
  | .nil => .nil
  | .bool b => .bool b
  | .int n => number n
  | .str s => .str s
  | .arr l => .arr (anyList number l)
  | .map l => .map (lastValue (anyEntries number l))

def anyList (number : Int → GoAny) : List Doc → List GoAny
  | [] => []
  | d :: l => anyOf number d :: anyList number l

def anyEntries (number : Int → GoAny) : List (Bytes × Doc) → List (Bytes × GoAny)
  | [] => []
  | (key, d) :: l => (key, anyOf number d) :: anyEntries number l

end

theorem anyList_eq (number : Int → GoAny) (l : List Doc) : anyList number l = l.map (anyOf number) := by
  induction l with
  | nil => rfl
  | cons d l ih => rw [anyList, ih, map_cons]

theorem anyEntries_eq (number : Int → GoAny) (l : List (Bytes × Doc)) :
    anyEntries number l = l.map fun entry => (entry.1, anyOf number entry.2) := by
  induction l with
  | nil => rfl
  | cons entry l ih => rw [anyEntries, ih, map_cons]

/-- The value a msgpack document stands for: integers as `int64`, those beyond it
reinterpreted. -/
def msgpackAny : Doc → GoAny := anyOf fun n => .int64 (.ofInt n)

theorem msgpackAny_arr (l : List Doc) : msgpackAny (.arr l) = .arr (l.map msgpackAny) := by
  rw [msgpackAny, anyOf, anyList_eq]

theorem msgpackAny_map (l : List (Bytes × Doc)) :
    msgpackAny (.map l) = .map (lastValue (l.map fun entry => (entry.1, msgpackAny entry.2))) := by
  rw [msgpackAny, anyOf, anyEntries_eq]

/-! ## The branches of `readValue` -/

variable {err : Nat → Nat → MsgpackError}

theorem reads_take (s : Bytes) : Reads (takeBytes err s.length) s s := by
  intro rest
  rw [takeBytes, if_pos (by rw [length_append]; omega), take_left, drop_left]

variable {n : Nat} {base : UInt8} {header body : Bytes} {v : GoAny} {c : Prop} {value : MsgpackReader GoAny}
  {maxInt : Nat}

theorem reads_uint {k : Nat} (hn : n < 256 ^ k) : Reads (readUint (takeBytes err) k) (beBytes k n) n := by
  unfold readUint
  split
  · rename_i hk
    subst hk
    intro rest
    have hbyte : (UInt8.ofNat n).toNat = n := by
      rw [UInt8.toNat_ofNat']
      omega
    show (ok ((UInt8.ofNat n).toNat, rest) : Except MsgpackError _) = _
    rw [hbyte]
  · have hread := (reads_take (beBytes k n) : Reads (takeBytes err _) _ _).map ofBeBytes
    rw [length_beBytes, ofBeBytes_beBytes, Nat.mod_eq_of_lt hn] at hread
    exact hread

variable {levels : Nat} {code : UInt8} {k : Nat}

theorem readWide_uint (h : (code, k) ∈ uintCodes) (rest : Bytes) : readWide err (levels + 1) (code :: rest) =
      ((fun n : Nat => .int64 (.ofNat n)) <$> readUint (takeBytes err) k : MsgpackReader GoAny) rest := by
  simp [uintCodes] at h
  rcases h with ⟨rfl, rfl⟩ | ⟨rfl, rfl⟩ | ⟨rfl, rfl⟩ | ⟨rfl, rfl⟩ <;> rfl

theorem readWide_int (h : (code, k) ∈ intCodes) (rest : Bytes) : readWide err (levels + 1) (code :: rest) =
      ((fun n : Nat => .int64 (.ofInt (Int.bmod n (256 ^ k)))) <$> readUint (takeBytes err) k : MsgpackReader GoAny)
        rest := by
  simp [intCodes] at h
  rcases h with ⟨rfl, rfl⟩ | ⟨rfl, rfl⟩ | ⟨rfl, rfl⟩ | ⟨rfl, rfl⟩ <;> rfl

theorem readWide_str (h : (code, k) ∈ strCodes) (rest : Bytes) :
    readWide err (levels + 1) (code :: rest) = (readUint (takeBytes err) k >>= readString (takeBytes err)) rest := by
  simp [strCodes] at h
  rcases h with ⟨rfl, rfl⟩ | ⟨rfl, rfl⟩ | ⟨rfl, rfl⟩ <;> rfl

theorem readWide_array (h : (code, k) ∈ arrayCodes) (rest : Bytes) :
    readWide err (levels + 1) (code :: rest) = (readUint (takeBytes err) k >>= fun length =>
      checkLength (2 ^ 32 - 1) .arrayTooLarge k length (readArray (readWide err levels) length)) rest := by
  simp [arrayCodes] at h
  rcases h with ⟨rfl, rfl⟩ | ⟨rfl, rfl⟩ <;> rfl

theorem readWide_map (h : (code, k) ∈ mapCodes) (rest : Bytes) :
    readWide err (levels + 1) (code :: rest) = (readUint (takeBytes err) k >>= fun length =>
      checkLength (2 ^ 32 - 1) .mapTooLarge k length (readMap (readWide err levels) length)) rest := by
  simp [mapCodes] at h
  rcases h with ⟨rfl, rfl⟩ | ⟨rfl, rfl⟩ <;> rfl

theorem readWide_fixstr (h : 0xa0 ≤ code.toNat ∧ code.toNat < 0xa0 + 32) (rest : Bytes) :
    readWide err (levels + 1) (code :: rest) = readString (takeBytes err) (code.toNat % 32) rest := by
  show (if code.toNat ≤ 0x7f then _ else _ : MsgpackReader GoAny) rest = _
  rw [if_neg (by omega), if_neg (by omega), if_pos (by omega)]

theorem readWide_fixarray (h : 0x90 ≤ code.toNat ∧ code.toNat < 0x90 + 16) (rest : Bytes) :
    readWide err (levels + 1) (code :: rest) = readArray (readWide err levels) (code.toNat % 16) rest := by
  show (if code.toNat ≤ 0x7f then _ else _ : MsgpackReader GoAny) rest = _
  rw [if_neg (by omega), if_neg (by omega), if_neg (by omega), if_pos (by omega)]
  rfl

theorem readWide_fixmap (h : 0x80 ≤ code.toNat ∧ code.toNat < 0x80 + 16) (rest : Bytes) :
    readWide err (levels + 1) (code :: rest) = readMap (readWide err levels) (code.toNat % 16) rest := by
  show (if code.toNat ≤ 0x7f then _ else _ : MsgpackReader GoAny) rest = _
  rw [if_neg (by omega), if_neg (by omega), if_neg (by omega), if_neg (by omega), if_pos (by omega)]
  rfl

/-! ## Forms are read -/

variable {codes : List (UInt8 × Nat)}

theorem toNat_base_add (h : base.toNat + n < 256) : (base + UInt8.ofNat n).toNat = base.toNat + n := by
  rw [UInt8.toNat_add, UInt8.toNat_ofNat']
  omega

section

variable {bound : Nat} (hbase : base.toNat % bound = 0 ∧ base.toNat + bound ≤ 256)

include hbase

theorem base_add_mod (hn : n < bound) : (base.toNat + n) % bound = n := by
  rw [Nat.add_mod, hbase.1, Nat.zero_add, Nat.mod_mod, Nat.mod_eq_of_lt hn]

theorem readWide_header {read : Nat → MsgpackReader GoAny} (h : Header base bound codes n header)
    (hfix : ∀ {code}, base.toNat ≤ code.toNat ∧ code.toNat < base.toNat + bound →
      ∀ rest, readWide err (levels + 1) (code :: rest) = read (code.toNat % bound) rest)
    (hcoded : ∀ {code k n}, (code, k) ∈ codes → n < 256 ^ k →
      ∀ rest, readWide err (levels + 1) (code :: (beBytes k n ++ rest)) = read n rest)
    (rest : Bytes) : readWide err (levels + 1) (header ++ rest) = read n rest := by
  cases h with
  | fix hn =>
    have hcode : (base + UInt8.ofNat n).toNat = base.toNat + n := toNat_base_add (by omega)
    rw [singleton_append, hfix ⟨by omega, by omega⟩, hcode, base_add_mod hbase hn]
  | coded hcode hn => exact hcoded hcode hn rest

theorem header_of_code (hcode : base.toNat ≤ code.toNat ∧ code.toNat < base.toNat + bound) :
    Header base bound codes (code.toNat % bound) [code] := by
  obtain ⟨n, hn⟩ := Nat.exists_eq_add_of_le hcode.1
  have heq : code = base + UInt8.ofNat n := by
    rw [← UInt8.toNat_inj, toNat_base_add (by omega), hn]
  rw [hn, base_add_mod hbase (by omega), heq]
  exact .fix (by omega)

end

theorem readWide_strHeader (h : StrHeader n header) (rest : Bytes) :
    readWide err (levels + 1) (header ++ rest) = readString (takeBytes err) n rest := by
  refine readWide_header (by decide) h readWide_fixstr ?_ rest
  intro code k n hcode hn rest
  rw [readWide_str hcode, (reads_uint hn).bind_apply]

theorem checkLength_of_lt {tooLarge : Nat → MsgpackError} {read : MsgpackReader GoAny} (hn : n < 256 ^ k) :
    checkLength (2 ^ 32 - 1) tooLarge k n read = read := by
  rw [checkLength, if_neg]
  rintro ⟨rfl, hlarge⟩
  omega

theorem readWide_arrayHeader (h : ArrayHeader n header) (rest : Bytes) :
    readWide err (levels + 1) (header ++ rest) = readArray (readWide err levels) n rest := by
  refine readWide_header (by decide) h readWide_fixarray ?_ rest
  intro code k n hcode hn rest
  rw [readWide_array hcode, (reads_uint hn).bind_apply, checkLength_of_lt hn]

theorem readWide_mapHeader (h : MapHeader n header) (rest : Bytes) :
    readWide err (levels + 1) (header ++ rest) = readMap (readWide err levels) n rest := by
  refine readWide_header (by decide) h readWide_fixmap ?_ rest
  intro code k n hcode hn rest
  rw [readWide_map hcode, (reads_uint hn).bind_apply, checkLength_of_lt hn]

theorem bmod_signed {n : Int} (h : (code, k) ∈ intCodes) (hlow : -(256 ^ k / 2) ≤ n) (hhigh : n < 256 ^ k / 2) :
    (n % 256 ^ k).toNat < 256 ^ k ∧ Int.bmod (n % 256 ^ k).toNat (256 ^ k) = n := by
  simp [intCodes] at h
  rcases h with ⟨-, rfl⟩ | ⟨-, rfl⟩ | ⟨-, rfl⟩ | ⟨-, rfl⟩ <;> simp only [Int.bmod] <;> constructor <;> omega

theorem reads_int {n : Int} {bytes : Bytes} (h : IntForm n bytes) :
    Reads (readWide err (levels + 1)) bytes (.int64 (.ofInt n)) := by
  intro rest
  cases h with
  | positiveFixint b hb =>
    show (if b.toNat ≤ 0x7f then _ else _ : MsgpackReader GoAny) rest = _
    rw [if_pos (by omega)]
    rfl
  | negativeFixint b hb =>
    show (if b.toNat ≤ 0x7f then _ else _ : MsgpackReader GoAny) rest = _
    rw [if_neg (by omega), if_pos hb]
    rfl
  | uint hcode hn =>
    rw [cons_append, readWide_uint hcode]
    exact (reads_uint hn).map _ rest
  | int hcode hlow hhigh =>
    rename_i code k
    obtain ⟨hlt, hbmod⟩ := bmod_signed hcode hlow hhigh
    have hread := (reads_uint hlt : Reads (readUint (takeBytes err) k) _ _).map (fun n : Nat => GoAny.int64 (.ofInt (Int.bmod n (256 ^ k)))) rest
    rw [hbmod] at hread
    rw [cons_append, readWide_int hcode]
    exact hread

theorem decides_array {c : Doc → Prop} {l : List Doc} {parts : List Bytes}
    (hforms : List.Forall₂ (fun part d => Encodes d part) parts l)
    (h : List.Forall₂ (fun part d => Decides value part (msgpackAny d) (c d)) parts l) :
    Decides (readArray value l.length) parts.flatten (msgpackAny (.arr l))
      (l.length ≤ maxMsgpackContainerLength ∧ ∀ d ∈ l, c d) := by
  intro rest
  unfold readArray
  by_cases hlength : l.length ≤ maxMsgpackContainerLength
  · have hleft : l.length ≤ (parts.flatten ++ rest).length := by
      have hparts := length_le_flatten (hforms.imp fun _ _ hform => hform.pos)
      rw [length_append]
      omega
    rw [if_neg (by omega), msgpackAny_arr]
    show _ ∧ (if (parts.flatten ++ rest).length < l.length then _ else _ : MsgpackReader GoAny) _ = _ ∨
      _ ∧ ∃ err, (if (parts.flatten ++ rest).length < l.length then _ else _ : MsgpackReader GoAny) _ = _
    rw [if_neg (by omega)]
    exact ((Decides.many h).map GoAny.arr).congr ⟨fun hall => ⟨hlength, hall⟩, fun hboth => hboth.2⟩ rest
  · rw [if_pos (by omega)]
    exact .inr ⟨fun hboth => hlength hboth.1, _, rfl⟩

theorem decides_map {c : Bytes × Doc → Prop} {l : List (Bytes × Doc)}
    {parts : List (Bytes × Bytes)} (hkeys : List.Forall₂ (fun part entry => StrForm entry.1 part.1) parts l)
    (hforms : List.Forall₂ (fun part entry => Encodes entry.2 part.2) parts l)
    (h : List.Forall₂ (fun part entry => Decides (readEntry value) (part.1 ++ part.2) (entry.1, msgpackAny entry.2)
      (c entry)) parts l) :
    Decides (readMap value l.length) (parts.map fun part => part.1 ++ part.2).flatten (msgpackAny (.map l))
      (l.length ≤ maxMsgpackContainerLength ∧ ∀ entry ∈ l, c entry) := by
  intro rest
  unfold readMap
  by_cases hlength : l.length ≤ maxMsgpackContainerLength
  · have hleft : 2 * l.length ≤ ((parts.map fun part => part.1 ++ part.2).flatten ++ rest).length := by
      have hparts : 2 * l.length ≤ (parts.map fun part => part.1 ++ part.2).flatten.length := by
        refine length_le_flatten (forall₂_map_left_iff.2 (hkeys.mp (fun part _ hkey hform => ?_) hforms))
        have hpos := hkey.pos
        have hpos' := hform.pos
        rw [length_append]
        omega
      rw [length_append]
      omega
    rw [if_neg (by omega), msgpackAny_map]
    show _ ∧ (if (_ ++ rest : Bytes).length / 2 < l.length then _ else _ : MsgpackReader GoAny) _ = _ ∨
      _ ∧ ∃ err, (if (_ ++ rest : Bytes).length / 2 < l.length then _ else _ : MsgpackReader GoAny) _ = _
    rw [if_neg (by omega)]
    have hmany := (Decides.many (forall₂_map_left_iff.2 h)).map fun entries => GoAny.map (buildMap entries)
    rw [buildMap_eq] at hmany
    exact hmany.congr ⟨fun hall => ⟨hlength, hall⟩, fun hboth => hboth.2⟩ rest
  · rw [if_pos (by omega)]
    exact .inr ⟨fun hboth => hlength hboth.1, _, rfl⟩

/-- A form of a document is read, whatever follows, if and only if the document
keeps the limits. -/
theorem decides_encoded {d : Doc} {bytes : Bytes} (h : Encodes d bytes) (levels : Nat) :
    Decides (readWide err levels) bytes (msgpackAny d) (d.Within maxMsgpackContainerLength levels) := by
  -- by the levels: what lies in a container has one less
  induction levels generalizing d bytes with
  | zero => exact fun rest => .inr ⟨id, _, rfl⟩
  | succ levels ih =>
    cases h with
    | nil | false | true => exact Reads.decides (fun _ => rfl) trivial
    | int hform => exact (reads_int hform).decides trivial
    | str hform =>
      obtain ⟨hheader⟩ := hform
      exact (((reads_take _).map GoAny.str).decides trivial).after (readWide_strHeader hheader)
    | arr hheader hparts =>
      exact (decides_array hparts (hparts.imp fun _ _ hpart => ih hpart)).after (readWide_arrayHeader hheader)
    | map hheader hkeys hparts =>
      refine (decides_map hkeys hparts ?_).after (readWide_mapHeader hheader)
      refine hkeys.mp (fun part entry hkey hpart => ?_) hparts
      refine ((ih (.str hkey)).bind ((ih hpart).map (Prod.mk entry.1))).congr ⟨fun hboth => hboth.2, fun hwithin => ⟨?_, hwithin⟩⟩
      -- where a value may lie, its key may
      cases levels with
      | zero => exact hwithin.elim
      | succ levels => trivial

/-! ## How reading a value ends -/

/-- The bytes are a form of a document within the limits, and `v` is its value. -/
def Accepted (levels : Nat) (taken : Bytes) (v : GoAny) : Prop :=
  ∃ d, Encodes d taken ∧ d.Within maxMsgpackContainerLength levels ∧ v = msgpackAny d

/-- The bytes are forms of a key and of a value. -/
def IsEntry (levels : Nat) (taken : Bytes) (entry : Bytes × GoAny) : Prop :=
  ∃ key value, StrForm entry.1 key ∧ Accepted levels value entry.2 ∧ taken = key ++ value

/-- The input, read with so many levels left, ends inside of a number or a text: of its
`length` bytes `left` are there. What comes before it in its containers is complete. -/
inductive EndsInside : Nat → Bytes → Nat → Nat → Prop
  | number {levels k : Nat} {code : UInt8} {body : Bytes} :
      (code, k) ∈ uintCodes ++ intCodes ++ strCodes ++ arrayCodes ++ mapCodes → 1 < k → body.length < k →
      EndsInside (levels + 1) (code :: body) body.length k
  | text {levels n : Nat} {header body : Bytes} : StrHeader n header → body.length < n →
      EndsInside (levels + 1) (header ++ body) body.length n
  | array {levels n left length : Nat} {header rest : Bytes} {parts : List Bytes} : ArrayHeader n header →
      n ≤ maxMsgpackContainerLength → n ≤ (parts.flatten ++ rest).length → parts.length < n →
      (∀ part ∈ parts, ∃ v, Accepted levels part v) → EndsInside levels rest left length →
      EndsInside (levels + 1) (header ++ (parts.flatten ++ rest)) left length
  | map {levels n left length : Nat} {header key rest : Bytes} {parts : List Bytes} : MapHeader n header →
      n ≤ maxMsgpackContainerLength → n ≤ (parts.flatten ++ (key ++ rest)).length / 2 → parts.length < n →
      (∀ part ∈ parts, ∃ entry, IsEntry levels part entry) → (key = [] ∨ ∃ s, StrForm s key) →
      EndsInside levels rest left length → EndsInside (levels + 1) (header ++ (parts.flatten ++ (key ++ rest))) left length

/-- A panic is that of a number or a text the input ends inside of. -/
def Stops (err : Nat → Nat → MsgpackError) (levels : Nat) (bytes : Bytes) (e : MsgpackError) : Prop :=
  e = .panic → ∃ left length, EndsInside levels bytes left length ∧ err left length = .panic

/-- Two lists whose members are made from common ones are made from one list. -/
theorem exists_common {α β γ : Type} {R : γ → Prop} {f : γ → α} {g : γ → β} {as : List α} {bs : List β}
    (h : List.Forall₂ (fun a b => ∃ c, R c ∧ a = f c ∧ b = g c) as bs) :
    ∃ cs : List γ, (∀ c ∈ cs, R c) ∧ as = cs.map f ∧ bs = cs.map g := by
  induction h with
  | nil => exact ⟨[], nofun, rfl, rfl⟩
  | cons hfirst _ ih =>
    obtain ⟨c, hc, rfl, rfl⟩ := hfirst
    obtain ⟨cs, hcs, rfl, rfl⟩ := ih
    exact ⟨c :: cs, forall_mem_cons.2 ⟨hc, hcs⟩, rfl, rfl⟩

theorem ends_remaining {P : Bytes → GoAny → Prop} {E : Bytes → MsgpackError → Prop} {f : Nat → MsgpackReader GoAny}
    (h : ∀ left, Ends P (fun bytes e => bytes.length = left → E bytes e) (f left)) : Ends P E (remaining >>= f) :=
  ⟨fun heq => (h _).ok heq, fun heq => (h _).error heq rfl⟩

theorem ends_string (hheader : StrHeader n header) :
    Ends (fun taken v => Accepted (levels + 1) (header ++ taken) v)
      (fun rest e => Stops err (levels + 1) (header ++ rest) e) (readString (takeBytes err) n) := by
  refine .map ((ends_take n).mono ?_ ?_)
  · rintro taken _ ⟨rfl, rfl⟩
    exact ⟨.str taken, .str ⟨hheader⟩, trivial, rfl⟩
  · rintro rest _ ⟨hlt, rfl⟩ hpanic
    exact ⟨_, _, .text hheader hlt, hpanic⟩

theorem ends_array (h : Ends (Accepted levels) (Stops err levels) value) (hheader : ArrayHeader n header) :
    Ends (fun taken v => Accepted (levels + 1) (header ++ taken) v)
      (fun rest e => Stops err (levels + 1) (header ++ rest) e) (readArray value n) := by
  refine .ite (fun _ => .throw fun _ => nofun) fun hlength => ends_remaining fun left => ?_
  refine .ite (fun _ => .throw fun _ _ => nofun) fun hleft => .map ((h.many n).mono ?_ ?_)
  · rintro _ vs ⟨rfl, parts, rfl, hparts⟩
    have hpairs := exists_common (R := fun c : Bytes × Doc => Encodes c.2 c.1 ∧ c.2.Within maxMsgpackContainerLength levels)
      (f := Prod.fst) (g := fun c => msgpackAny c.2) (hparts.imp ?_)
    · obtain ⟨cs, hcs, rfl, rfl⟩ := hpairs
      rw [length_map] at hheader hlength
      refine ⟨.arr (cs.map Prod.snd), .arr (by rwa [length_map]) ?_, ⟨?_, ?_⟩, ?_⟩
      · rw [forall₂_map_left_iff, forall₂_map_right_iff, forall₂_same]
        exact fun c hc => (hcs c hc).1
      · rw [length_map]
        omega
      · exact forall_mem_map.2 fun c hc => (hcs c hc).2
      · rw [msgpackAny_arr, map_map]
        rfl
    · rintro part v ⟨d, hform, hwithin, rfl⟩
      exact ⟨(part, d), ⟨hform, hwithin⟩, rfl, rfl⟩
  · rintro _ e ⟨parts, rest, hlt, hparts, rfl, hstops⟩ hlen hpanic
    obtain ⟨left, length, hends, herr⟩ := hstops hpanic
    exact ⟨left, length, .array hheader (by omega) (by omega) hlt hparts hends, herr⟩

theorem ends_entry (h : Ends (Accepted levels) (Stops err levels) value) :
    Ends (IsEntry levels) (fun bytes e => ∃ key rest, (key = [] ∨ ∃ s, StrForm s key) ∧ bytes = key ++ rest ∧
      Stops err levels rest e) (readEntry value) := by
  refine (h.mono (fun _ _ hkey => hkey) fun bytes e he => ⟨[], bytes, .inl rfl, rfl, he⟩).bind ?_
  rintro first key ⟨keyDoc, hkey, -, rfl⟩
  cases keyDoc with
  | str key =>
    cases hkey with
    | str hkey =>
      exact .map (h.mono (fun taken v hv => ⟨first, taken, hkey, hv, rfl⟩)
        fun rest e he => ⟨first, rest, .inr ⟨key, hkey⟩, rfl, he⟩)
  | _ => exact .throw fun bytes => ⟨[], _, .inl rfl, rfl, nofun⟩

theorem ends_map (h : Ends (Accepted levels) (Stops err levels) value) (hheader : MapHeader n header) :
    Ends (fun taken v => Accepted (levels + 1) (header ++ taken) v)
      (fun rest e => Stops err (levels + 1) (header ++ rest) e) (readMap value n) := by
  refine .ite (fun _ => .throw fun _ => nofun) fun hlength => ends_remaining fun left => ?_
  refine .ite (fun _ => .throw fun _ _ => nofun) fun hleft => Ends.map (((ends_entry h).many n).mono ?_ ?_)
  · rintro _ entries ⟨rfl, parts, rfl, hparts⟩
    have hpairs := exists_common (R := fun c : (Bytes × Bytes) × (Bytes × Doc) =>
        StrForm c.2.1 c.1.1 ∧ Encodes c.2.2 c.1.2 ∧ c.2.2.Within maxMsgpackContainerLength levels)
      (f := fun c => c.1.1 ++ c.1.2) (g := fun c => (c.2.1, msgpackAny c.2.2)) (hparts.imp ?_)
    rotate_left
    · rintro _ ⟨s, _⟩ ⟨key, bytes, hkey, ⟨d, hform, hwithin, rfl⟩, rfl⟩
      exact ⟨((key, bytes), (s, d)), ⟨hkey, hform, hwithin⟩, rfl, rfl⟩
    obtain ⟨cs, hcs, rfl, rfl⟩ := hpairs
    rw [length_map] at hheader hlength
    have hbody : (cs.map fun c => c.1.1 ++ c.1.2) = (cs.map Prod.fst).map fun part => part.1 ++ part.2 := by
      rw [map_map]
      rfl
    rw [hbody, buildMap_eq]
    refine ⟨.map (cs.map Prod.snd), .map (by rwa [length_map]) ?_ ?_, ⟨?_, ?_⟩, ?_⟩
    · rw [forall₂_map_left_iff, forall₂_map_right_iff, forall₂_same]
      exact fun c hc => (hcs c hc).1
    · rw [forall₂_map_left_iff, forall₂_map_right_iff, forall₂_same]
      exact fun c hc => (hcs c hc).2.1
    · rw [length_map]
      omega
    · exact forall_mem_map.2 fun c hc => (hcs c hc).2.2
    · rw [msgpackAny_map, map_map]
      rfl
  · rintro _ e ⟨parts, _, hlt, hparts, rfl, key, rest, hkey, rfl, hstops⟩ hlen hpanic
    obtain ⟨left, length, hends, herr⟩ := hstops hpanic
    exact ⟨left, length, .map hheader (by omega) (by omega) hlt hparts hkey hends, herr⟩

theorem intForm_of_bmod (h : (code, k) ∈ intCodes) (hn : n < 256 ^ k) :
    IntForm (Int.bmod n (256 ^ k)) (code :: beBytes k n) := by
  have hbmod : -(256 ^ k / 2) ≤ Int.bmod n (256 ^ k) ∧ Int.bmod n (256 ^ k) < 256 ^ k / 2 ∧
      (Int.bmod n (256 ^ k) % 256 ^ k).toNat = n := by
    simp [intCodes] at h
    rcases h with ⟨-, rfl⟩ | ⟨-, rfl⟩ | ⟨-, rfl⟩ | ⟨-, rfl⟩ <;> simp only [Int.bmod] <;> omega
  obtain ⟨hlow, hhigh, hvalue⟩ := hbmod
  have hform := IntForm.int h hlow hhigh
  rwa [hvalue] at hform

theorem ends_number (levels : Nat) (h : (code, k) ∈ uintCodes ++ intCodes ++ strCodes ++ arrayCodes ++ mapCodes) :
    Ends (fun taken n => taken = beBytes k n ∧ n < 256 ^ k) (fun rest e => Stops err (levels + 1) ([code] ++ rest) e)
      (readUint (takeBytes err) k) := by
  refine ends_uint.mono (fun _ _ hn => hn) ?_
  rintro rest _ (rfl | ⟨hk, hlt, rfl⟩) hpanic
  · cases hpanic
  · exact ⟨_, _, .number h hk hlt, hpanic⟩

theorem Ends.checked {P : Bytes → GoAny → Prop} {E : Bytes → MsgpackError → Prop} {tooLarge : Nat → MsgpackError}
    {length : Nat} {read : MsgpackReader GoAny} (h : Ends P E read) (hE : ∀ bytes, E bytes (tooLarge length)) :
    Ends P E (checkLength maxInt tooLarge k length read) :=
  .ite (fun _ => .throw hE) fun _ => h

/-- What the decoder reads is a form of a document within the limits, and where it
panics the input ends too early. -/
theorem ends_readWide (levels : Nat) : Ends (Accepted levels) (Stops err levels) (readWide err levels) := by
  induction levels with
  | zero => exact .throw fun _ => nofun
  | succ levels ih =>
    refine (Ends.byte _ fun _ => nofun).bind ?_
    rintro _ code rfl
    refine .ite (fun hcode => .pure ⟨.int code.toNat, .int (.positiveFixint code (by omega)), trivial, rfl⟩) fun _ => ?_
    refine .ite (fun hcode => .pure ⟨.int (code.toNat - 256), .int (.negativeFixint code hcode), trivial, rfl⟩) fun _ => ?_
    refine .ite (fun hcode => ends_string (header_of_code (by decide) ⟨hcode.1, Nat.lt_succ_of_le hcode.2⟩)) fun _ => ?_
    refine .ite (fun hcode => ends_array ih (header_of_code (by decide) ⟨hcode.1, Nat.lt_succ_of_le hcode.2⟩)) fun _ => ?_
    refine .ite (fun hcode => ends_map ih (header_of_code (by decide) ⟨hcode.1, Nat.lt_succ_of_le hcode.2⟩)) fun _ => ?_
    refine .ite (fun hcode => .pure ⟨.nil, hcode ▸ .nil, trivial, rfl⟩) fun _ => ?_
    refine .ite (fun hcode => .pure ⟨.bool false, hcode ▸ .false, trivial, rfl⟩) fun _ => ?_
    refine .ite (fun hcode => .pure ⟨.bool true, hcode ▸ .true, trivial, rfl⟩) fun _ => ?_
    cases huint : uintCodes.lookup code with
    | some k =>
      have hcode := mem_of_lookup huint
      refine .map ((ends_number levels (by simp [hcode])).mono ?_ fun _ _ he => he)
      rintro _ n ⟨rfl, hn⟩
      exact ⟨.int n, .int (.uint hcode hn), trivial, rfl⟩
    | none =>
    cases hint : intCodes.lookup code with
    | some k =>
      have hcode := mem_of_lookup hint
      refine .map ((ends_number levels (by simp [hcode])).mono ?_ fun _ _ he => he)
      rintro _ n ⟨rfl, hn⟩
      exact ⟨.int _, .int (intForm_of_bmod hcode hn), trivial, rfl⟩
    | none =>
    cases hstr : strCodes.lookup code with
    | some k =>
      have hcode := mem_of_lookup hstr
      refine (ends_number levels (by simp [hcode])).bind ?_
      rintro _ n ⟨rfl, hn⟩
      have hheader : StrHeader n (code :: beBytes k n) := .coded hcode hn
      exact ends_string hheader
    | none =>
    cases harray : arrayCodes.lookup code with
    | some k =>
      have hcode := mem_of_lookup harray
      refine (ends_number levels (by simp [hcode])).bind ?_
      rintro _ n ⟨rfl, hn⟩
      have hheader : ArrayHeader n (code :: beBytes k n) := .coded hcode hn
      exact Ends.checked (ends_array ih hheader) fun _ => nofun
    | none =>
    cases hmap : mapCodes.lookup code with
    | some k =>
      have hcode := mem_of_lookup hmap
      refine (ends_number levels (by simp [hcode])).bind ?_
      rintro _ n ⟨rfl, hn⟩
      have hheader : MapHeader n (code :: beBytes k n) := .coded hcode hn
      exact Ends.checked (ends_map ih hheader) fun _ => nofun
    | none => exact .throw fun _ => nofun

theorem Accepted.reads {taken : Bytes} (h : Accepted levels taken v) : Reads (readWide err levels) taken v := by
  obtain ⟨d, hform, hwithin, rfl⟩ := h
  intro rest
  rcases decides_encoded hform levels rest with ⟨-, hread⟩ | ⟨hnot, -⟩
  · exact hread
  · exact absurd hwithin hnot

theorem takeBytes_short (h : body.length < n) : takeBytes err n body = .error (err body.length n) := by
  rw [takeBytes, if_neg (by omega)]

theorem readUint_short (hk : 1 < k) (h : body.length < k) : readUint (takeBytes err) k body = .error (err body.length k) := by
  rw [readUint, if_neg (by omega)]
  exact map_error (takeBytes_short h) _

/-- The decoder comes to the place where the input ends. -/
theorem EndsInside.readWide {bytes : Bytes} {left length : Nat} (h : EndsInside levels bytes left length)
    (err : Nat → Nat → MsgpackError) : readWide err levels bytes = .error (err left length) := by
  induction h with
  | number hcode hk hlt =>
    simp only [mem_append] at hcode
    rcases hcode with (((hcode | hcode) | hcode) | hcode) | hcode
    · exact (readWide_uint hcode _).trans (map_error (readUint_short hk hlt) _)
    · exact (readWide_int hcode _).trans (map_error (readUint_short hk hlt) _)
    · exact (readWide_str hcode _).trans (bind_error (readUint_short hk hlt))
    · exact (readWide_array hcode _).trans (bind_error (readUint_short hk hlt))
    · exact (readWide_map hcode _).trans (bind_error (readUint_short hk hlt))
  | text hheader hlt => exact (readWide_strHeader hheader _).trans (map_error (takeBytes_short hlt) _)
  | @array levels n _ _ _ rest parts hheader hmax hleft hlt hparts _ ih =>
    rw [readWide_arrayHeader hheader, readArray, if_neg (by omega)]
    show (if (parts.flatten ++ rest).length < n then _ else _ : MsgpackReader GoAny) _ = _
    rw [if_neg (by omega)]
    refine map_error (readMany_error (fun part hpart => ?_) ih hlt) _
    obtain ⟨v, hv⟩ := hparts part hpart
    exact ⟨v, hv.reads⟩
  | @map levels n _ _ _ key rest parts hheader hmax hleft hlt hparts hkey hrest ih =>
    have hstr : ∀ {s key}, StrForm s key → Reads (V2Board.readWide err levels) key (.str s) := by
      cases hrest <;> exact fun hform => Accepted.reads ⟨.str _, .str hform, trivial, rfl⟩
    rw [readWide_mapHeader hheader, readMap, if_neg (by omega)]
    show (if (parts.flatten ++ (key ++ rest)).length / 2 < n then _ else _ : MsgpackReader GoAny) _ = _
    rw [if_neg (by omega)]
    refine map_error (readMany_error (fun part hpart => ?_) ?_ hlt) _
    · obtain ⟨⟨s, v⟩, key, bytes, hkey, hv, rfl⟩ := hparts part hpart
      exact ⟨(s, v), (hstr hkey).bind (hv.reads.map (Prod.mk s))⟩
    · rcases hkey with rfl | ⟨s, hkey⟩
      · exact bind_error ih
      · rw [readEntry, (hstr hkey).bind_apply]
        exact map_error ih (Prod.mk s)

theorem EndsInside.length_lt {bytes : Bytes} {left length : Nat} (h : EndsInside levels bytes left length) :
    left < length ∧ length < 2 ^ 32 := by
  induction h with
  | @number _ k _ _ hcode _ hlt =>
    have hk : k ≤ 8 := by
      simp [uintCodes, intCodes, strCodes, arrayCodes, mapCodes] at hcode
      omega
    omega
  | text hheader hlt =>
    refine ⟨hlt, ?_⟩
    cases hheader with
    | fix hn => omega
    | coded hcode hn => exact lt_of_width (width_le_four (.inl hcode)) hn
  | array _ _ _ _ _ _ ih | map _ _ _ _ _ _ _ ih => exact ih

/-! ## Whole inputs -/

variable {readBytes : Nat → MsgpackReader Bytes}

theorem decodeWith_eq_ok {data : Bytes} :
    decodeWith readBytes maxInt data = .ok v ↔ readValue readBytes maxInt (maxMsgpackDepth + 1) data = .ok (v, []) := by
  unfold decodeWith
  split
  · rename_i err hread
    rw [hread]
    exact ⟨nofun, nofun⟩
  · rename_i value rest hread
    rw [hread]
    split
    · rename_i hrest
      subst hrest
      exact ⟨fun h => by rw [ok.inj h], fun h => congrArg (ok ·.1) (ok.inj h)⟩
    · rename_i hrest
      exact ⟨nofun, fun h => absurd (congrArg Prod.snd (ok.inj h)) hrest⟩

theorem decodeWith_eq_panic {data : Bytes} : decodeWith readBytes maxInt data = .error .panic ↔
    readValue readBytes maxInt (maxMsgpackDepth + 1) data = .error .panic := by
  unfold decodeWith
  split
  · rename_i err hread
    rw [hread]
    exact ⟨fun h => by rw [error.inj h], fun h => by rw [error.inj h]⟩
  · rename_i value rest hread
    rw [hread]
    split <;> exact ⟨nofun, nofun⟩

section Width

variable {w : Nat} {data : Bytes} (hw : w = 32 ∨ w = 64) (hdata : data.length < 2 ^ (w - 1))

include hw hdata

theorem decodeMsgpack_eq :
    decodeMsgpack w data = decodeWith (takeBytes (shortError w data.length)) (2 ^ 32 - 1) data := by
  have hread := (lockstep_readValue hw hdata (maxMsgpackDepth + 1) data (le_refl _)).1
  rw [decodeMsgpack, decodeWith, decodeWith, ← hread]
  rfl

theorem decodeMsgpack_eq_ok : decodeMsgpack w data = .ok v ↔ Accepted (maxMsgpackDepth + 1) data v := by
  rw [decodeMsgpack_eq hw hdata, decodeWith_eq_ok]
  constructor
  · intro hread
    obtain ⟨taken, rfl, haccepted⟩ := (ends_readWide (maxMsgpackDepth + 1)).ok hread
    rwa [append_nil]
  · intro h
    have hread : readWide (shortError w data.length) _ (data ++ []) = _ := h.reads []
    rwa [append_nil] at hread

/-- It panics where a number or a text would end beyond the largest `int`. -/
theorem decodeMsgpack_eq_panic : decodeMsgpack w data = .error .panic ↔
    ∃ left length, EndsInside (maxMsgpackDepth + 1) data left length ∧
      length < 2 ^ (w - 1) ∧ 2 ^ (w - 1) ≤ data.length - left + length := by
  rw [decodeMsgpack_eq hw hdata, decodeWith_eq_panic]
  constructor
  · intro hread
    obtain ⟨left, length, hends, herr⟩ := (ends_readWide (maxMsgpackDepth + 1)).error hread rfl
    refine ⟨left, length, hends, Decidable.byContradiction fun hover => ?_⟩
    rw [shortError, if_neg hover] at herr
    cases herr
  · rintro ⟨left, length, hends, hover⟩
    have hread := hends.readWide (shortError w data.length)
    rwa [shortError, if_pos hover] at hread

/-- An `int` of 64 bits is large enough for every input there is. -/
theorem decodeMsgpack_ne_panic (hlarge : data.length + 2 ^ 32 ≤ 2 ^ (w - 1)) : decodeMsgpack w data ≠ .error .panic := by
  rw [ne_eq, decodeMsgpack_eq_panic hw hdata]
  rintro ⟨left, length, hends, -, hover⟩
  have hlength := hends.length_lt
  omega

/-- The decoder accepts the forms of documents within the limits and has an error for
everything else, without a slice out of range, if and only if the input does not end
inside of a number or a text whose own end is beyond the largest `int`. -/
theorem decodeMsgpack_exact_iff :
    ((∀ v, decodeMsgpack w data = .ok v ↔ Accepted (maxMsgpackDepth + 1) data v) ∧
        decodeMsgpack w data ≠ .error .panic) ↔
      ∀ left length, EndsInside (maxMsgpackDepth + 1) data left length → length < 2 ^ (w - 1) →
        data.length - left + length < 2 ^ (w - 1) := by
  rw [ne_eq, decodeMsgpack_eq_panic hw hdata]
  constructor
  · rintro ⟨-, hnone⟩ left length hends hlength
    exact Nat.lt_of_not_le fun hover => hnone ⟨left, length, hends, hlength, hover⟩
  · refine fun hnone => ⟨fun v => decodeMsgpack_eq_ok hw hdata, ?_⟩
    rintro ⟨left, length, hends, hlength, hover⟩
    exact absurd (hnone left length hends hlength) (Nat.not_lt.2 hover)

end Width

theorem decodeMsgpack_ne_panic_long : decodeMsgpack 64 [0xdb, 0x7f, 0xff, 0xff, 0xff] ≠ .error .panic :=
  decodeMsgpack_ne_panic (.inr rfl) (by decide) (by decide)

/-- A map with one entry, where an `int` has 64 bits. -/
theorem decodeMsgpack_exact_small :
    ((∀ v, decodeMsgpack 64 [0x81, 0xa1, 0x61, 0x01] = .ok v ↔ Accepted 65 [0x81, 0xa1, 0x61, 0x01] v) ∧
        decodeMsgpack 64 [0x81, 0xa1, 0x61, 0x01] ≠ .error .panic) := by
  refine (decodeMsgpack_exact_iff (.inr rfl) (by decide)).2 fun left length hends => ?_
  cases hends.readWide fun _ _ => .panic

/-- With 32 bits a text of 2³¹ - 1 bytes that is cut off is a panic. -/
theorem long_text_panics : decodeMsgpack 32 [0xdb, 0x7f, 0xff, 0xff, 0xff] = .error .panic := rfl

end Singlink.V2Board
