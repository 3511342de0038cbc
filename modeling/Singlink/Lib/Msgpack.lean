import Singlink.Lib.Codec
/-!
# MessagePack

The byte strings that are a MessagePack form of a document: nil, booleans,
integers, texts, arrays, and maps with texts as keys. A document has many forms:
integers and lengths may be written in more bytes than they need.

`Doc.Within` is what a decoder with limits accepts of the documents: how deep values
may lie in containers, and how many entries a container may have.
-/

namespace Singlink.Lib.Msgpack

open Codec List

inductive Doc where
  | nil
  | bool (b : Bool)
  | int (n : Int)
  | str (s : Bytes)
  | arr (l : List Doc)
  | map (l : List (Bytes × Doc))

/-! ## Forms -/

/-- The codes of unsigned and of signed integers, with the bytes that follow. -/
def uintCodes : List (UInt8 × Nat) := [(0xcc, 1), (0xcd, 2), (0xce, 4), (0xcf, 8)]
def intCodes : List (UInt8 × Nat) := [(0xd0, 1), (0xd1, 2), (0xd2, 4), (0xd3, 8)]

/-- The forms of an integer. -/
inductive IntForm : Int → Bytes → Prop
  | positiveFixint (b : UInt8) : b.toNat < 0x80 → IntForm b.toNat [b]
  | negativeFixint (b : UInt8) : 0xe0 ≤ b.toNat → IntForm (b.toNat - 256) [b]
  | uint {code : UInt8} {k n : Nat} : (code, k) ∈ uintCodes → n < 256 ^ k → IntForm n (code :: beBytes k n)
  | int {code : UInt8} {k : Nat} {n : Int} : (code, k) ∈ intCodes → -(256 ^ k / 2) ≤ n → n < 256 ^ k / 2 →
      IntForm n (code :: beBytes k (n % 256 ^ k).toNat)

/-- The forms of a length: below `bound` in the code itself, `base` plus the length,
or in the bytes after one of the codes. -/
inductive Header (base : UInt8) (bound : Nat) (codes : List (UInt8 × Nat)) : Nat → Bytes → Prop
  | fix {n : Nat} : n < bound → Header base bound codes n [base + UInt8.ofNat n]
  | coded {code : UInt8} {k n : Nat} : (code, k) ∈ codes → n < 256 ^ k → Header base bound codes n (code :: beBytes k n)

def strCodes : List (UInt8 × Nat) := [(0xd9, 1), (0xda, 2), (0xdb, 4)]
def arrayCodes : List (UInt8 × Nat) := [(0xdc, 2), (0xdd, 4)]
def mapCodes : List (UInt8 × Nat) := [(0xde, 2), (0xdf, 4)]

abbrev StrHeader := Header 0xa0 32 strCodes
abbrev ArrayHeader := Header 0x90 16 arrayCodes
abbrev MapHeader := Header 0x80 16 mapCodes

/-- The forms of a text. -/
inductive StrForm : Bytes → Bytes → Prop
  | mk {s header : Bytes} : StrHeader s.length header → StrForm s (header ++ s)

/-- The bytes are a form of the document. -/
inductive Encodes : Doc → Bytes → Prop
  | nil : Encodes .nil [0xc0]
  | false : Encodes (.bool false) [0xc2]
  | true : Encodes (.bool true) [0xc3]
  | int {n : Int} {bytes : Bytes} : IntForm n bytes → Encodes (.int n) bytes
  | str {s bytes : Bytes} : StrForm s bytes → Encodes (.str s) bytes
  | arr {l : List Doc} {header : Bytes} {parts : List Bytes} : ArrayHeader l.length header →
      List.Forall₂ (fun part d => Encodes d part) parts l → Encodes (.arr l) (header ++ parts.flatten)
  | map {l : List (Bytes × Doc)} {header : Bytes} {parts : List (Bytes × Bytes)} : MapHeader l.length header →
      List.Forall₂ (fun part entry => StrForm entry.1 part.1) parts l →
      List.Forall₂ (fun part entry => Encodes entry.2 part.2) parts l →
      Encodes (.map l) (header ++ (parts.map fun part => part.1 ++ part.2).flatten)

variable {bytes : Bytes}

theorem Header.pos {base : UInt8} {bound : Nat} {codes : List (UInt8 × Nat)} {n : Nat}
    (h : Header base bound codes n bytes) : 0 < bytes.length := by
  cases h <;> exact Nat.succ_pos _

theorem StrForm.pos {s : Bytes} (h : StrForm s bytes) : 0 < bytes.length := by
  obtain ⟨hheader⟩ := h
  rw [length_append]
  exact Nat.add_pos_left hheader.pos _

theorem Encodes.pos {d : Doc} (h : Encodes d bytes) : 0 < bytes.length := by
  cases h with
  | nil | false | true => exact one_pos
  | int hform => cases hform <;> exact Nat.succ_pos _
  | str hform => exact hform.pos
  | arr hheader _ | map hheader _ _ =>
    rw [length_append]
    exact Nat.add_pos_left hheader.pos _

theorem length_le_flatten {α : Type} {k : Nat} {parts : List Bytes} {l : List α}
    (h : List.Forall₂ (fun part _ => k ≤ part.length) parts l) : k * l.length ≤ parts.flatten.length := by
  induction h with
  | nil => exact le_refl 0
  | cons hfirst _ ih =>
    rw [flatten_cons, length_append, length_cons, Nat.mul_succ]
    omega

/-! ## Parts of a form -/

theorem Encodes.int_range {n : Int} (h : Encodes (.int n) bytes) : -2 ^ 63 ≤ n ∧ n < 2 ^ 64 := by
  cases h with
  | int hform =>
    cases hform with
    | positiveFixint b hb => omega
    | negativeFixint b hb =>
      have hlt := b.toNat_lt
      omega
    | uint hcode hn =>
      simp only [uintCodes, mem_cons, Prod.mk.injEq, not_mem_nil, or_false] at hcode
      rcases hcode with ⟨-, rfl⟩ | ⟨-, rfl⟩ | ⟨-, rfl⟩ | ⟨-, rfl⟩ <;> omega
    | int hcode hlow hhigh =>
      simp only [intCodes, mem_cons, Prod.mk.injEq, not_mem_nil, or_false] at hcode
      rcases hcode with ⟨-, rfl⟩ | ⟨-, rfl⟩ | ⟨-, rfl⟩ | ⟨-, rfl⟩ <;> omega

theorem exists_part_of_mem {α β : Type} {P : β → α → Prop} {parts : List β} {l : List α} (h : List.Forall₂ P parts l)
    {a : α} (ha : a ∈ l) : ∃ part, P part a := by
  induction h with
  | nil => cases ha
  | cons hfirst _ ih =>
    rcases mem_cons.1 ha with rfl | htail
    · exact ⟨_, hfirst⟩
    · exact ih htail

theorem Encodes.of_mem_arr {l : List Doc} (h : Encodes (.arr l) bytes) {d : Doc} (hd : d ∈ l) :
    ∃ part, Encodes d part := by
  cases h with
  | arr _ hparts => exact exists_part_of_mem hparts hd

theorem Encodes.of_mem_map {l : List (Bytes × Doc)} (h : Encodes (.map l) bytes)
    {entry : Bytes × Doc} (hentry : entry ∈ l) : ∃ part, Encodes entry.2 part := by
  cases h with
  | map _ _ hparts =>
    obtain ⟨part, hpart⟩ := exists_part_of_mem hparts hentry
    exact ⟨part.2, hpart⟩

/-! ## Limits -/

/-- No value lies in `levels` or more containers, and no container has more than
`maxLength` entries. -/
def Doc.Within (maxLength : Nat) : Nat → Doc → Prop
  | 0, _ => False
  | levels + 1, .arr l => l.length ≤ maxLength ∧ ∀ d ∈ l, Doc.Within maxLength levels d
  | levels + 1, .map l => l.length ≤ maxLength ∧ ∀ entry ∈ l, Doc.Within maxLength levels entry.2
  | _ + 1, _ => True

end Singlink.Lib.Msgpack
