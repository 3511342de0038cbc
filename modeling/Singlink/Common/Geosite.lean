import Mathlib.Data.List.Sort
import Singlink.Lib.Codec
import Singlink.Lib.GoMap
/-!
# geosite files

`Write` of `common/geosite/writer.go` and the `Reader` of `reader.go`. A file has a
table of the codes, with the places of their items counted from its end, and then
the items. Strings are their bytes, and no disk fails.
-/

namespace Singlink.Geosite

open Lib Lib.Codec List

structure Item where
  type : UInt8
  value : Bytes
  deriving DecidableEq

abbrev Domains := GoMap Bytes (List Item)

/-! ## Writing -/

def writeString (value : Bytes) : Bytes := putUvarint value.length ++ value

def writeItem (item : Item) : Bytes := item.type :: writeString item.value

def writeItems (items : List Item) : Bytes := items.flatMap writeItem

/-- A code with the place and the number of its items. -/
structure Row where
  code : Bytes
  index : Nat
  length : Nat

def writeRow (row : Row) : Bytes := writeString row.code ++ (putUvarint row.index ++ putUvarint row.length)

def sorted (domains : Domains) : List (Bytes × List Item) :=
  (domains.keys.insertionSort (· ≤ ·)).map fun code => (code, domains.get code [])

/-- The rows of entries whose items are written behind `length` bytes. -/
def rows : Nat → List (Bytes × List Item) → List Row
  | _, [] => []
  | length, (code, items) :: entries => ⟨code, length, items.length⟩ :: rows (length + (writeItems items).length) entries

def content (entries : List (Bytes × List Item)) : Bytes := entries.flatMap fun entry => writeItems entry.2

def write (domains : Domains) : Bytes :=
  let entries := sorted domains
  0 :: (putUvarint entries.length ++ (rows 0 entries).flatMap writeRow) ++ content entries

/-! ## Reading -/

inductive ReadError where
  | eof
  | overflow
  | unknownVersion
  | notExists (code : Bytes)

def readCount : Codec.Reader ReadError Nat := readUvarint .eof .overflow

def readString : Codec.Reader ReadError Bytes := readCount >>= readFull .eof

def readItem : Codec.Reader ReadError Item := do
  let type ← readByte .eof
  let value ← readString
  return ⟨type, value⟩

def readRow : Codec.Reader ReadError Row := do
  let code ← readString
  let index ← readCount
  let length ← readCount
  return ⟨code, index, length⟩

def readRows : Codec.Reader ReadError (List Row) := do
  let version ← readByte .eof
  if version ≠ 0 then throw .unknownVersion
  else
    let entryLength ← readCount
    readMany readRow entryLength

structure Reader where
  file : Bytes
  metadataIndex : Nat
  domainIndex : GoMap Bytes Nat
  domainLength : GoMap Bytes Nat
  /-- what the buffered reader gives next -/
  unread : Bytes

/-- `m[row.code] = f row`, row after row. -/
def fill (f : Row → Nat) (l : List Row) : GoMap Bytes Nat := l.foldl (fun m row => m.insert row.code (f row)) ∅

/-- `NewReader`, with the codes. The table is what was counted and is not buffered. -/
def newReader (file : Bytes) : Except ReadError (Reader × List Bytes) := do
  let (rows, unread) ← readRows file
  let domainIndex := fill Row.index rows
  return (⟨file, file.length - unread.length, domainIndex, fill Row.length rows, unread⟩, domainIndex.keys)

/-- `Read`, which seeks and resets the buffer before it reads. -/
def Reader.read (r : Reader) (code : Bytes) : Except ReadError (List Item) × Reader :=
  match r.domainIndex.lookup code with
  | none => (.error (.notExists code), r)
  | some index =>
    match readMany readItem (r.domainLength.get code 0) (r.file.drop (r.metadataIndex + index)) with
    | .ok (items, unread) => (.ok items, { r with unread })
    | .error err => (.error err, { r with unread := [] })

/-- The results of one `Read` after the other. -/
def Reader.readAll : Reader → List Bytes → List (Except ReadError (List Item))
  | _, [] => []
  | r, code :: codes => (r.read code).1 :: (r.read code).2.readAll codes

/-- The lengths are those of Go values, which an `int` can hold. -/
structure Fits (domains : Domains) : Prop where
  codes : (sorted domains).length < 2 ^ 63
  code : ∀ entry ∈ sorted domains, entry.1.length < 2 ^ 63
  items : ∀ entry ∈ sorted domains, entry.2.length < 2 ^ 63
  value : ∀ entry ∈ sorted domains, ∀ item ∈ entry.2, item.value.length < 2 ^ 63
  content : (content (sorted domains)).length < 2 ^ 63

/-! ## Back again -/

theorem reads_count {n : Nat} (h : n < 2 ^ 63) : Reads readCount (putUvarint n) n := reads_uvarint _ _ (by omega)

theorem reads_string {value : Bytes} (h : value.length < 2 ^ 63) : Reads readString (writeString value) value :=
  (reads_count h).bind (reads_full _ value)

theorem reads_items {items : List Item} (h : ∀ item ∈ items, item.value.length < 2 ^ 63) :
    Reads (readMany readItem items.length) (writeItems items) items := by
  have hall := reads_flatMap (f := id) (r := readItem) fun item hitem =>
    Reads.byte ((reads_string (h item hitem)).map fun value => (⟨item.type, value⟩ : Item))
  rwa [map_id] at hall

variable {entries : List (Bytes × List Item)} {length : Nat} {code : Bytes} {items : List Item}

theorem codes_rows : (rows length entries).map Row.code = entries.map Prod.fst := by
  induction entries generalizing length with
  | nil => rfl
  | cons entry entries ih => rw [rows, map_cons, ih, map_cons]

theorem mem_rows {row : Row} (h : row ∈ rows length entries) : ∃ items rest before, (row.code, items) ∈ entries ∧
    row.length = items.length ∧ content entries = before ++ (writeItems items ++ rest) ∧
    row.index = length + before.length := by
  induction entries generalizing length with
  | nil => cases h
  | cons entry entries ih =>
    obtain ⟨code, items⟩ := entry
    rcases mem_cons.1 h with rfl | h
    · exact ⟨items, content entries, [], .head _, rfl, rfl, rfl⟩
    · obtain ⟨items', rest, before, hmem, hlength, hcontent, hindex⟩ := ih h
      refine ⟨items', rest, writeItems items ++ before, .tail _ hmem, hlength, ?_, ?_⟩
      · rw [append_assoc, ← hcontent]
        rfl
      · rw [hindex, length_append, add_assoc]

variable {f : Row → Nat} {l : List Row}

theorem mem_fill : code ∈ fill f l ↔ code ∈ l.map Row.code := by
  induction l using reverseRecOn with
  | nil => exact iff_of_false (AList.notMem_empty code) not_mem_nil
  | append_singleton l row ih =>
    rw [fill, foldl_concat, ← fill, AList.mem_insert, ih, map_append, mem_append, or_comm,
      map_singleton, mem_singleton]

theorem lookup_fill {row : Row} (h : (l.map Row.code).Nodup) (hrow : row ∈ l) :
    (fill f l).lookup row.code = some (f row) := by
  induction l using reverseRecOn with
  | nil => cases hrow
  | append_singleton l last ih =>
    rw [map_append, nodup_append] at h
    rw [fill, foldl_concat, ← fill]
    rcases mem_append.1 hrow with hl | hlast
    · rw [AList.lookup_insert_ne (h.2.2 _ (mem_map_of_mem hl) _ (.head _)), ih h.1 hl]
    · rw [mem_singleton.1 hlast, AList.lookup_insert]

variable {domains : Domains}

theorem codes_perm : ((rows 0 (sorted domains)).map Row.code).Perm domains.keys := by
  rw [codes_rows, sorted, map_map]
  exact (map_id _).symm ▸ perm_insertionSort _ _

theorem nodup_codes : ((rows 0 (sorted domains)).map Row.code).Nodup := codes_perm.nodup_iff.2 domains.keys_nodup

theorem lookup_of_sorted (h : (code, items) ∈ sorted domains) : domains.lookup code = some items := by
  obtain ⟨_, hcode, ⟨⟩⟩ := mem_map.1 h
  have hmem : code ∈ domains := AList.mem_keys.2 ((mem_insertionSort _).1 hcode)
  obtain ⟨items, hitems⟩ := Option.isSome_iff_exists.1 (AList.lookup_isSome.2 hmem)
  rw [GoMap.get, hitems, Option.getD_some]

/-- What `Read` is to give. -/
def written (domains : Domains) (code : Bytes) : Except ReadError (List Item) :=
  (domains.lookup code).elim (.error (.notExists code)) .ok

/-- The reader has the table of `domains`, and their items behind it. -/
structure Serves (domains : Domains) (r : Reader) : Prop where
  index : r.domainIndex = fill Row.index (rows 0 (sorted domains))
  length : r.domainLength = fill Row.length (rows 0 (sorted domains))
  items : ∀ n, r.file.drop (r.metadataIndex + n) = (content (sorted domains)).drop n

theorem Serves.mem {r : Reader} (hr : Serves domains r) : code ∈ r.domainIndex ↔ code ∈ domains := by
  rw [hr.index, mem_fill, codes_perm.mem_iff, AList.mem_keys]

theorem Serves.read {r : Reader} (hr : Serves domains r) (h : Fits domains) (code : Bytes) :
    (r.read code).1 = written domains code ∧ Serves domains (r.read code).2 := by
  by_cases hcode : code ∈ domains
  · obtain ⟨row, hrow, rfl⟩ := mem_map.1 (codes_perm.mem_iff.2 hcode)
    obtain ⟨items, rest, before, hmem, hlength, hcontent, hindex⟩ := mem_rows hrow
    have hfound : r.domainIndex.lookup row.code = some row.index := by
      rw [hr.index, lookup_fill nodup_codes hrow]
    have hcount : r.domainLength.get row.code 0 = items.length := by
      rw [GoMap.get, hr.length, lookup_fill nodup_codes hrow, ← hlength, Option.getD_some]
    have hunread : r.file.drop (r.metadataIndex + row.index) = writeItems items ++ rest := by
      rw [hr.items, hcontent, hindex, zero_add, drop_left]
    have hread := reads_items (h.value _ hmem) rest
    rw [Reader.read, hfound, written, lookup_of_sorted hmem]
    simp only [hcount, hunread, hread]
    exact ⟨rfl, hr.1, hr.2, hr.3⟩
  · rw [Reader.read, written, AList.lookup_eq_none.2 hcode, AList.lookup_eq_none.2 (mt hr.mem.1 hcode)]
    exact ⟨rfl, hr⟩

theorem Serves.readAll {r : Reader} (hr : Serves domains r) (h : Fits domains) (codes : List Bytes) :
    r.readAll codes = codes.map (written domains) := by
  induction codes generalizing r with
  | nil => rfl
  | cons code codes ih =>
    obtain ⟨hresult, hnext⟩ := hr.read h code
    rw [Reader.readAll, hresult, ih hnext, map_cons]

theorem reads_row (h : Fits domains) {row : Row} (hrow : row ∈ rows 0 (sorted domains)) :
    Reads readRow (writeRow row) row := by
  obtain ⟨items, rest, before, hmem, hlength, hcontent, hindex⟩ := mem_rows hrow
  have hplace : row.index < 2 ^ 63 := by
    have hall := h.content
    rw [hcontent, length_append] at hall
    omega
  have hitems : row.length < 2 ^ 63 := hlength ▸ h.items _ hmem
  have hrest := (reads_count hitems).map fun length => (⟨row.code, row.index, length⟩ : Row)
  exact (reads_string (h.code _ hmem)).bind ((reads_count hplace).bind hrest)

/-- The table is read up to the items. -/
theorem readRows_write (h : Fits domains) :
    readRows (write domains) = .ok (rows 0 (sorted domains), content (sorted domains)) := by
  have hcount : (rows 0 (sorted domains)).length = (sorted domains).length := by
    rw [← length_map Row.code, codes_rows, length_map]
  have hmany := reads_flatMap (f := id) fun row hrow => reads_row h hrow
  rw [map_id, hcount] at hmany
  exact Reads.byte ((reads_count h.codes).bind hmany) _

/-- A file gives back the codes and, in whatever order and however often they are asked for,
their items. -/
theorem newReader_write (domains : Domains) (h : Fits domains) : ∃ r codes,
    newReader (write domains) = .ok (r, codes) ∧ codes.Perm domains.keys ∧
      ∀ asked, r.readAll asked = asked.map (written domains) := by
  let r : Reader := ⟨write domains, (write domains).length - (content (sorted domains)).length,
    fill Row.index (rows 0 (sorted domains)), fill Row.length (rows 0 (sorted domains)), content (sorted domains)⟩
  have hopen : newReader (write domains) = .ok (r, r.domainIndex.keys) := by
    rw [newReader, readRows_write h]
    rfl
  have hr : Serves domains r := by
    refine ⟨rfl, rfl, fun n => ?_⟩
    show (write domains).drop ((write domains).length - _ + n) = _
    rw [write, length_append, Nat.add_sub_cancel, drop_length_add_append]
  have hcodes := (perm_ext_iff_of_nodup (AList.keys_nodup _) domains.keys_nodup).2 fun _ => hr.mem
  exact ⟨r, _, hopen, hcodes, hr.readAll h⟩

/-- Two codes, the later one first. -/
def sample : Domains := (AList.singleton [99] [⟨2, [120, 121]⟩, ⟨0, []⟩]).insert [98] [⟨1, [122]⟩]

theorem newReader_write_sample : ∃ r codes, newReader (write sample) = .ok (r, codes) ∧ codes.Perm sample.keys ∧
    r.readAll [[99], [98], [99]] = [[99], [98], [99]].map (written sample) := by
  have h : Fits sample := by constructor <;> decide
  obtain ⟨r, codes, hopen, hcodes, hread⟩ := newReader_write sample h
  exact ⟨r, codes, hopen, hcodes, hread _⟩

end Singlink.Geosite
