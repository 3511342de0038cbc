import Mathlib.Data.List.Induction
import Mathlib.Tactic.Ring
/-!
# Readers that read back what was written

A reader takes bytes from the front of its input; a writer gives the bytes it
writes, or fails. `Reads` says that a reader takes exactly the given bytes,
whatever follows them, and `RoundTrip` that it does so with everything a writer
writes. Both compose along `bind`, so formats are proved field by field.
-/

namespace Singlink.Lib.Codec

open List

abbrev Bytes := List UInt8

abbrev Reader (ε α : Type) := StateT Bytes (Except ε) α

abbrev Writer (ε : Type) := Except ε Bytes

variable {ε δ α β : Type}

/-! ## Reading back -/

/-- The reader takes `bytes` and returns `a`. -/
def Reads (r : Reader ε α) (bytes : Bytes) (a : α) : Prop := ∀ rest, r (bytes ++ rest) = .ok (a, rest)

theorem Reads.pure (a : α) : Reads (pure a : Reader ε α) [] a := fun _ => rfl

variable {r : Reader ε α} {bytes : Bytes} {a : α} {f : α → Reader ε β} {b : β} {n : Nat} {P : Bytes → α → Prop}
  {c : Prop}

theorem Reads.bind_apply (h : Reads r bytes a) (f : α → Reader ε β) (rest : Bytes) :
    (r >>= f) (bytes ++ rest) = f a rest := by
  show (r (bytes ++ rest) >>= fun p => f p.1 p.2) = _
  rw [h rest]
  rfl

theorem Reads.bind {bytes' : Bytes}
    (h : Reads r bytes a) (h' : Reads (f a) bytes' b) : Reads (r >>= f) (bytes ++ bytes') b := by
  intro rest
  rw [append_assoc, h.bind_apply]
  exact h' rest

theorem Reads.map (h : Reads r bytes a) (f : α → β) : Reads (f <$> r) bytes (f a) := by
  rw [map_eq_pure_bind, ← append_nil bytes]
  exact h.bind (.pure (f a))

/-! ## Writers -/

namespace Writer

def append (w w' : Writer ε) : Writer ε :=
  match w with
  | .error err => .error err
  | .ok bytes =>
    match w' with
    | .error err => .error err
    | .ok bytes' => .ok (bytes ++ bytes')

def concat : List (Writer ε) → Writer ε
  | [] => .ok []
  | w :: ws => append w (concat ws)

/-- Nothing is written unless `cond` holds. -/
def when (cond : Bool) (w : Writer ε) : Writer ε := if cond then w else .ok []

theorem append_eq_ok {w w' : Writer ε} :
    append w w' = .ok bytes ↔ ∃ b b', w = .ok b ∧ w' = .ok b' ∧ bytes = b ++ b' := by
  constructor
  · intro h
    cases w with
    | error err => cases h
    | ok b =>
      cases w' with
      | error err => cases h
      | ok b' =>
        cases h
        exact ⟨b, b', rfl, rfl, rfl⟩
  · rintro ⟨b, b', rfl, rfl, rfl⟩
    rfl

theorem ok_of_mem {ws : List (Writer ε)} (h : concat ws = .ok bytes) {w : Writer ε} (hw : w ∈ ws) :
    ∃ part, w = .ok part := by
  induction ws generalizing bytes with
  | nil => cases hw
  | cons w' ws ih =>
    obtain ⟨first, rest, hfirst, hrest, -⟩ := append_eq_ok.1 h
    rcases mem_cons.1 hw with rfl | hmem
    · exact ⟨first, hfirst⟩
    · exact ih hrest hmem

end Writer

/-- The reader reads back as `a` whatever the writer writes. -/
def RoundTrip (w : Writer δ) (r : Reader ε α) (a : α) : Prop := ∀ bytes, w = .ok bytes → Reads r bytes a

theorem RoundTrip.pure (a : α) : RoundTrip (.ok [] : Writer δ) (pure a : Reader ε α) a := by
  rintro _ ⟨⟩
  exact .pure a

theorem RoundTrip.bind {w w' : Writer δ}
    (h : RoundTrip w r a) (h' : RoundTrip w' (f a) b) : RoundTrip (w.append w') (r >>= f) b := by
  intro bytes hbytes
  obtain ⟨bytes₁, bytes₂, h₁, h₂, rfl⟩ := Writer.append_eq_ok.1 hbytes
  exact (h bytes₁ h₁).bind (h' bytes₂ h₂)

theorem RoundTrip.map {w : Writer δ} (h : RoundTrip w r a) (f : α → β) : RoundTrip w (f <$> r) (f a) :=
  fun bytes hbytes => (h bytes hbytes).map f

/-! ## Bytes -/

def readByte (eof : ε) : Reader ε UInt8
  | [] => .error eof
  | b :: rest => .ok (b, rest)

theorem Reads.byte {eof : ε} {b : UInt8} {f : UInt8 → Reader ε α} (h : Reads (f b) bytes a) :
    Reads (readByte eof >>= f) (b :: bytes) a := h

/-- `io.ReadFull` into `n` bytes. -/
def readFull (eof : ε) (n : Nat) : Reader ε Bytes := fun bytes =>
  if n ≤ bytes.length then .ok (bytes.take n, bytes.drop n) else .error eof

variable (eof : ε)

theorem reads_full (bytes : Bytes) : Reads (readFull eof bytes.length) bytes bytes := by
  intro rest
  unfold readFull
  rw [if_pos (by rw [length_append]; exact Nat.le_add_right _ _), take_left, drop_left]

/-! ## Sequences -/

def readMany {m : Type → Type} [Monad m] (r : m α) : Nat → m (List α)
  | 0 => pure []
  | n + 1 => do
    let a ← r
    let as ← readMany r n
    return a :: as

theorem reads_flatMap {w : α → Bytes} {r : Reader ε β} {f : α → β} {l : List α} (h : ∀ a ∈ l, Reads r (w a) (f a)) :
    Reads (readMany r l.length) (l.flatMap w) (l.map f) := by
  induction l with
  | nil => exact .pure []
  | cons a l ih =>
    have hrest := ih fun b hb => h b (mem_cons_of_mem _ hb)
    exact (h a mem_cons_self).bind (hrest.map (f a :: ·))

theorem reads_many {w : α → Writer δ} {r : Reader ε β} {f : α → β} {size : Nat} {l : List α}
    (h : ∀ a ∈ l, ∀ bytes, w a = .ok bytes → bytes.length ≤ size → Reads r bytes (f a))
    (hbytes : Writer.concat (l.map w) = .ok bytes) (hsize : bytes.length ≤ size) :
    Reads (readMany r l.length) bytes (l.map f) := by
  induction l generalizing bytes with
  | nil =>
    cases hbytes
    exact .pure []
  | cons a l ih =>
    obtain ⟨first, rest, hfirst, hrest, rfl⟩ := Writer.append_eq_ok.1 hbytes
    rw [length_append] at hsize
    have hread := ih (fun b hb => h b (mem_cons_of_mem _ hb)) hrest (by omega)
    exact (h a mem_cons_self first hfirst (by omega)).bind (hread.map (f a :: ·))

theorem roundTrip_many {w : α → Writer δ} {r : Reader ε β} {f : α → β} (l : List α)
    (h : ∀ a ∈ l, RoundTrip (w a) r (f a)) : RoundTrip (Writer.concat (l.map w)) (readMany r l.length) (l.map f) :=
  fun _ hbytes => reads_many (fun a ha bytes hw _ => h a ha bytes hw) hbytes le_rfl

/-! ## Numbers -/

/-- The `k` lowest bytes of `n`, highest first. -/
def beBytes : Nat → Nat → Bytes
  | 0, _ => []
  | k + 1, n => beBytes k (n / 256) ++ [UInt8.ofNat n]

/-- The number with the given bytes, highest first. -/
def ofBeBytes (bytes : Bytes) : Nat := bytes.foldl (fun n b => n * 256 + b.toNat) 0

theorem length_beBytes (k n : Nat) : (beBytes k n).length = k := by
  induction k generalizing n with
  | zero => rfl
  | succ k ih => rw [beBytes, length_append, ih, length_singleton]

theorem ofBeBytes_concat (bytes : Bytes) (b : UInt8) : ofBeBytes (bytes ++ [b]) = ofBeBytes bytes * 256 + b.toNat := by
  rw [ofBeBytes, foldl_append]
  rfl

theorem ofBeBytes_beBytes (k n : Nat) : ofBeBytes (beBytes k n) = n % 256 ^ k := by
  induction k generalizing n with
  | zero => rw [pow_zero, Nat.mod_one]; rfl
  | succ k ih =>
    have hlow : (UInt8.ofNat n).toNat = n % 256 := UInt8.toNat_ofNat'
    rw [beBytes, ofBeBytes_concat, ih, hlow, pow_succ, mul_comm (256 ^ k), Nat.mod_mul]
    ring

theorem ofBeBytes_lt (bytes : Bytes) : ofBeBytes bytes < 256 ^ bytes.length := by
  induction bytes using reverseRecOn with
  | nil => exact one_pos
  | append_singleton bytes b ih =>
    have hb := b.toNat_lt
    rw [ofBeBytes_concat, length_append, length_singleton]
    omega

theorem beBytes_ofBeBytes (bytes : Bytes) : beBytes bytes.length (ofBeBytes bytes) = bytes := by
  induction bytes using reverseRecOn with
  | nil => rfl
  | append_singleton bytes b ih =>
    have hb := b.toNat_lt
    have hhigh : (ofBeBytes bytes * 256 + b.toNat) / 256 = ofBeBytes bytes := by omega
    have hlow : UInt8.ofNat (ofBeBytes bytes * 256 + b.toNat) = b := by
      rw [← UInt8.toNat_inj, UInt8.toNat_ofNat']
      omega
    rw [ofBeBytes_concat, length_append, length_singleton, beBytes, hhigh, hlow, ih]

/-- `binary.Read` of a big-endian number of `k` bytes. -/
def readBE (eof : ε) (k : Nat) : Reader ε Nat := ofBeBytes <$> readFull eof k

theorem reads_be {k : Nat} (h : n < 256 ^ k) : Reads (readBE eof k) (beBytes k n) n := by
  have hread := (reads_full eof (beBytes k n)).map ofBeBytes
  rw [length_beBytes, ofBeBytes_beBytes, Nat.mod_eq_of_lt h] at hread
  exact hread

/-- Seven bits a byte, lowest first, with `left` more bytes at most. -/
def putUvarintFrom : Nat → Nat → Bytes
  | 0, n => [UInt8.ofNat n]
  | left + 1, n => if n < 128 then [UInt8.ofNat n] else UInt8.ofNat (n % 128 + 128) :: putUvarintFrom left (n / 128)

/-- `varbin.WriteUvarint` of a number of 64 bits. -/
def putUvarint (n : Nat) : Bytes := putUvarintFrom 9 n

/-- `binary.ReadUvarint`, with `left` bytes to go before the number has more than
64 bits. -/
def readUvarintFrom (eof overflow : ε) : Nat → Reader ε Nat
  | 0 => throw overflow
  | left + 1 => do
    let b ← readByte eof
    if b.toNat < 128 then
      if left = 0 ∧ 1 < b.toNat then throw overflow else return b.toNat
    else
      let n ← readUvarintFrom eof overflow left
      return b.toNat - 128 + 128 * n

def readUvarint (eof overflow : ε) : Reader ε Nat := readUvarintFrom eof overflow 10

variable (eof overflow : ε)

theorem reads_uvarintFrom_small {left : Nat} (hn : n < 128) (hlast : left = 0 → n < 2) :
    Reads (readUvarintFrom eof overflow (left + 1)) [UInt8.ofNat n] n := by
  have hbyte : (UInt8.ofNat n).toNat = n := by rw [UInt8.toNat_ofNat']; omega
  refine .byte ?_
  rw [if_pos (by omega), if_neg (by omega), hbyte]
  exact .pure n

theorem reads_uvarintFrom (left n : Nat) (h : n < 2 ^ (7 * left + 1)) :
    Reads (readUvarintFrom eof overflow (left + 1)) (putUvarintFrom left n) n := by
  induction left generalizing n with
  | zero =>
    have hn : n < 2 := h
    exact reads_uvarintFrom_small eof overflow (by omega) fun _ => hn
  | succ left ih =>
    rw [putUvarintFrom]
    split
    · exact reads_uvarintFrom_small eof overflow ‹_› nofun
    · have hbyte : (UInt8.ofNat (n % 128 + 128)).toNat = n % 128 + 128 := by rw [UInt8.toNat_ofNat']; omega
      have hhigh : n / 128 < 2 ^ (7 * left + 1) := by
        have hpow : 2 ^ (7 * (left + 1) + 1) = 2 ^ (7 * left + 1) * 128 := by ring
        omega
      refine .byte ?_
      rw [hbyte]
      have hvalue : n = n % 128 + 128 - 128 + 128 * (n / 128) := by omega
      have hread := (ih (n / 128) hhigh).map fun k => n % 128 + 128 - 128 + 128 * k
      rw [← hvalue] at hread
      exact hread

theorem reads_uvarint (h : n < 2 ^ 64) : Reads (readUvarint eof overflow) (putUvarint n) n :=
  reads_uvarintFrom eof overflow 9 n h

/-! ## How much is read -/

/-- The reader takes `n` bytes at least, if it succeeds. -/
def Consumes (n : Nat) (r : Reader ε α) : Prop := ∀ bytes a rest, r bytes = .ok (a, rest) → rest.length + n ≤ bytes.length

theorem Consumes.mono {n' : Nat} (h : Consumes n r) (hn : n' ≤ n) : Consumes n' r :=
  fun bytes a rest heq => by
    have hle := h bytes a rest heq
    omega

theorem Consumes.pure (a : α) : Consumes 0 (pure a : Reader ε α) := by
  rintro bytes _ _ ⟨⟩
  exact le_rfl

theorem Consumes.throw (n : Nat) (err : ε) : Consumes n (throw err : Reader ε α) := nofun

theorem Consumes.bind {n' : Nat} (h : Consumes n r) (hf : ∀ a, Consumes n' (f a)) : Consumes (n + n') (r >>= f) := by
  intro bytes b rest heq
  change (r bytes >>= fun p => f p.1 p.2) = _ at heq
  cases hfirst : r bytes with
  | error err =>
    rw [hfirst] at heq
    cases heq
  | ok result =>
    rw [hfirst] at heq
    have hle := h bytes result.1 result.2 hfirst
    have hle' := hf result.1 result.2 b rest heq
    omega

theorem Consumes.map (h : Consumes n r) (f : α → β) : Consumes n (f <$> r) := by
  exact h.bind fun a => .pure (f a)

theorem Consumes.many {k : Nat} (h : Consumes k r) (n : Nat) : Consumes (n * k) (readMany r n) := by
  induction n with
  | zero =>
    rw [zero_mul]
    exact .pure []
  | succ n ih =>
    have hall := h.bind fun a => ih.bind fun as => .pure (a :: as)
    exact .mono hall (by rw [Nat.succ_mul]; omega)

theorem consumes_byte : Consumes 1 (readByte eof) := by
  intro bytes b rest heq
  cases bytes with
  | nil => cases heq
  | cons b' bytes =>
    cases heq
    exact le_rfl

theorem consumes_full (n : Nat) : Consumes n (readFull eof n) := by
  intro bytes result rest heq
  unfold readFull at heq
  split at heq
  · cases heq
    rw [length_drop]
    omega
  · cases heq

theorem consumes_be (k : Nat) : Consumes k (readBE eof k) := (consumes_full eof k).map _

theorem consumes_uvarintFrom (left : Nat) : Consumes 1 (readUvarintFrom eof overflow left) := by
  induction left with
  | zero => exact .throw 1 overflow
  | succ left ih =>
    refine .bind (consumes_byte eof) fun b => (?_ : Consumes 0 _)
    split
    · split
      · exact .throw 0 overflow
      · exact .pure _
    · exact (ih.mono (Nat.zero_le 1)).bind fun n => .pure _

theorem consumes_uvarint : Consumes 1 (readUvarint eof overflow) := consumes_uvarintFrom eof overflow 10

/-! ## How reading ends -/

/-- If the reader succeeds, `P` holds of what it takes and returns, and if it fails, `E`
of its input and the error. -/
structure Ends (P : Bytes → α → Prop) (E : Bytes → ε → Prop) (r : Reader ε α) : Prop where
  ok : ∀ {bytes a rest}, r bytes = .ok (a, rest) → ∃ taken, bytes = taken ++ rest ∧ P taken a
  error : ∀ {bytes err}, r bytes = .error err → E bytes err

namespace Ends

variable {E : Bytes → ε → Prop} {err : ε}

theorem mono {Q : Bytes → α → Prop} {E' : Bytes → ε → Prop} (h : Ends P E r) (hPQ : ∀ taken a, P taken a → Q taken a)
    (hE : ∀ bytes err, E bytes err → E' bytes err) : Ends Q E' r := by
  refine ⟨fun heq => ?_, fun heq => hE _ _ (h.error heq)⟩
  obtain ⟨taken, rfl, hP⟩ := h.ok heq
  exact ⟨taken, rfl, hPQ taken _ hP⟩

theorem pure (h : P [] a) : Ends P E (pure a : Reader ε α) := by
  refine ⟨?_, nofun⟩
  rintro bytes _ _ ⟨⟩
  exact ⟨[], rfl, h⟩

theorem throw (h : ∀ bytes, E bytes err) : Ends P E (throw err : Reader ε α) := by
  refine ⟨nofun, ?_⟩
  rintro bytes _ ⟨⟩
  exact h bytes

theorem bind {Q : Bytes → β → Prop} (h : Ends P E r) (hf : ∀ first a, P first a →
    Ends (fun taken b => Q (first ++ taken) b) (fun rest err => E (first ++ rest) err) (f a)) : Ends Q E (r >>= f) := by
  constructor
  · intro bytes b rest heq
    change (r bytes >>= fun p => f p.1 p.2) = _ at heq
    cases hfirst : r bytes with
    | error err =>
      rw [hfirst] at heq
      cases heq
    | ok result =>
      rw [hfirst] at heq
      obtain ⟨first, rfl, hP⟩ := h.ok hfirst
      obtain ⟨taken, htaken, hQ⟩ := (hf first _ hP).ok heq
      exact ⟨first ++ taken, by rw [htaken, append_assoc], hQ⟩
  · intro bytes err heq
    change (r bytes >>= fun p => f p.1 p.2) = _ at heq
    cases hfirst : r bytes with
    | error err' =>
      rw [hfirst] at heq
      cases heq
      exact h.error hfirst
    | ok result =>
      rw [hfirst] at heq
      obtain ⟨first, rfl, hP⟩ := h.ok hfirst
      exact (hf first _ hP).error heq

theorem map {P : Bytes → β → Prop} {f : α → β} (h : Ends (fun taken a => P taken (f a)) E r) :
    Ends P E (f <$> r) := by
  exact h.bind fun first a hP => .pure (by rw [append_nil]; exact hP)

theorem ite [Decidable c] {r₁ r₂ : Reader ε α} (h₁ : c → Ends P E r₁) (h₂ : ¬ c → Ends P E r₂) :
    Ends P E (if c then r₁ else r₂) := by
  split
  · exact h₁ ‹_›
  · exact h₂ ‹_›

theorem byte (h : ∀ bytes, E bytes eof) : Ends (fun taken b => taken = [b]) E (readByte eof) := by
  constructor
  · intro bytes b rest heq
    cases bytes with
    | nil => cases heq
    | cons b' bytes =>
      cases heq
      exact ⟨[b], rfl, rfl⟩
  · intro bytes err heq
    cases bytes <;> cases heq
    exact h []

/-- All parts are read, or some and the next one is not. -/
theorem many (h : Ends P E r) (n : Nat) :
    Ends (fun taken as => as.length = n ∧ ∃ parts, taken = parts.flatten ∧ List.Forall₂ P parts as)
      (fun bytes err => ∃ (parts : List Bytes) (rest : Bytes), parts.length < n ∧ (∀ part ∈ parts, ∃ a, P part a) ∧
        bytes = parts.flatten ++ rest ∧ E rest err) (readMany r n) := by
  induction n with
  | zero => exact .pure ⟨rfl, [], rfl, .nil⟩
  | succ n ih =>
    refine (h.mono (fun _ _ hP => hP) fun bytes err hE => ⟨[], bytes, n.succ_pos, nofun, rfl, hE⟩).bind
      fun first a hP => (ih.mono (fun _ _ hrest => hrest) ?_).bind fun taken as hrest => .pure ?_
    · rintro _ err ⟨parts, rest, hlt, hparts, rfl, hE⟩
      exact ⟨first :: parts, rest, Nat.succ_lt_succ hlt, forall_mem_cons.2 ⟨⟨a, hP⟩, hparts⟩, by simp, hE⟩
    · obtain ⟨hlength, parts, rfl, hparts⟩ := hrest
      refine ⟨by rw [length_cons, hlength], first :: parts, ?_, .cons hP hparts⟩
      rw [append_nil, flatten_cons]

end Ends

theorem bind_error {err : ε} (h : r bytes = .error err) : (r >>= f) bytes = .error err := by
  show (r bytes >>= fun p => f p.1 p.2) = _
  rw [h]
  rfl

theorem map_error {err : ε} (h : r bytes = .error err) (f : α → β) : (f <$> r) bytes = .error err :=
  bind_error (f := fun a => pure (f a)) h

theorem readMany_error {err : ε} {parts : List Bytes} {rest : Bytes} (h : ∀ part ∈ parts, ∃ a, Reads r part a)
    (hrest : r rest = .error err) (hn : parts.length < n) : readMany r n (parts.flatten ++ rest) = .error err := by
  induction n generalizing parts with
  | zero => cases hn
  | succ n ih =>
    cases parts with
    | nil => exact bind_error hrest
    | cons part parts =>
      obtain ⟨⟨a, hpart⟩, hparts⟩ := forall_mem_cons.1 h
      rw [flatten_cons, append_assoc, readMany, hpart.bind_apply]
      exact bind_error (ih hparts (Nat.lt_of_succ_lt_succ hn))

/-! ## When something is read -/

/-- The reader takes `bytes` and returns `a` if `c` holds, and fails if not. -/
def Decides (r : Reader ε α) (bytes : Bytes) (a : α) (c : Prop) : Prop :=
  ∀ rest, c ∧ r (bytes ++ rest) = .ok (a, rest) ∨ ¬ c ∧ ∃ err, r (bytes ++ rest) = .error err

theorem Reads.decides (h : Reads r bytes a) (hc : c) :
    Decides r bytes a c := fun rest => .inl ⟨hc, h rest⟩

theorem Decides.congr {c' : Prop} (h : Decides r bytes a c) (hc : c ↔ c') : Decides r bytes a c' := by
  intro rest
  rw [← hc]
  exact h rest

theorem Decides.after {r' : Reader ε α} {header : Bytes} (h : Decides r' bytes a c)
    (heq : ∀ rest, r (header ++ rest) = r' rest) : Decides r (header ++ bytes) a c := by
  intro rest
  rw [append_assoc, heq]
  exact h rest

theorem Decides.bind {bytes' : Bytes} {c' : Prop}
    (h : Decides r bytes a c) (h' : Decides (f a) bytes' b c') : Decides (r >>= f) (bytes ++ bytes') b (c ∧ c') := by
  intro rest
  rw [append_assoc]
  show _ ∧ (r (bytes ++ (bytes' ++ rest)) >>= fun p => f p.1 p.2) = _ ∨
    _ ∧ ∃ err, (r (bytes ++ (bytes' ++ rest)) >>= fun p => f p.1 p.2) = _
  rcases h (bytes' ++ rest) with ⟨hc, heq⟩ | ⟨hc, err, heq⟩
  · rw [heq]
    rcases h' rest with ⟨hc', heq'⟩ | ⟨hc', err, heq'⟩
    · exact .inl ⟨⟨hc, hc'⟩, heq'⟩
    · exact .inr ⟨fun hboth => hc' hboth.2, err, heq'⟩
  · rw [heq]
    exact .inr ⟨fun hboth => hc hboth.1, err, rfl⟩

theorem Decides.map (h : Decides r bytes a c) (f : α → β) : Decides (f <$> r) bytes (f a) c := by
  rw [map_eq_pure_bind, ← append_nil bytes]
  exact (h.bind ((Reads.pure (f a)).decides trivial)).congr (and_iff_left trivial)

theorem Decides.many {r : Reader ε β} {f : α → β} {c : α → Prop} {parts : List Bytes} {l : List α}
    (h : List.Forall₂ (fun part a => Decides r part (f a) (c a)) parts l) :
    Decides (readMany r l.length) parts.flatten (l.map f) (∀ a ∈ l, c a) := by
  induction h with
  | nil => exact (Reads.pure []).decides nofun
  | cons hfirst _ ih =>
    exact (hfirst.bind (ih.map _)).congr forall_mem_cons.symm

end Singlink.Lib.Codec
