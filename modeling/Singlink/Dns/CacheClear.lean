import Singlink.Dns.Cache
/-!
# Clearing the cache file

`ClearDNSCache` beside `SaveDNSCacheAsync` and the goroutines that write, for one
key. Clearing removes the pending entry and the entry of the database in two steps
and does not wait for goroutines: one that has lost its entry runs on, beside the
one that the next save starts, and writes what it had read. The sequence of an
entry starts anew with it, so it does not tell the two apart.
-/

namespace Singlink.Dns

open Lib Option

variable {Raw : Type}

def SaveDNSCacheEntry.value (entry : SaveDNSCacheEntry Raw) : Raw × Seconds := (entry.rawMessage, entry.expireAt)

/-- The part of `CacheFile` that belongs to one key, with all goroutines that write
it and the number of calls of `ClearDNSCache` between their two steps. `lastSaved`
is the value of the last save since the last `ClearDNSCache`. -/
structure KeyCache (Raw : Type) where
  pending : Option (SaveDNSCacheEntry Raw) := none
  db : Option (Raw × Seconds) := none
  flushes : List (Flush Raw) := []
  clears : Nat := 0
  lastSaved : Option (Raw × Seconds) := none

namespace KeyCache

def loadDNSCache (c : KeyCache Raw) : Option (Raw × Seconds) :=
  match c.pending with
  | some entry => some entry.value
  | none => c.db

/-- `SaveDNSCacheAsync` with `queueDNSCacheSave`. A goroutine is started unless the
entry has one. -/
def saveDNSCacheAsync (c : KeyCache Raw) (rawMessage : Raw) (expireAt : Seconds) : KeyCache Raw :=
  let sequence := (c.pending.map (·.sequence)).getD 0
  let saving := (c.pending.map (·.saving)).getD false
  { c with
    pending := some { rawMessage, expireAt, sequence := sequence + 1, saving := true }
    flushes := if saving then c.flushes else c.flushes ++ [.reading]
    lastSaved := some (rawMessage, expireAt) }

/-- The next step of goroutine `i`, in the loop of `flushPendingDNSCacheWith`. -/
def flushPendingDNSCache (c : KeyCache Raw) (i : Nat) : KeyCache Raw :=
  match c.flushes[i]? with
  | none => c
  | some .reading =>
    match c.pending with
    | none => { c with flushes := c.flushes.eraseIdx i }
    | some entry => { c with flushes := c.flushes.set i (.saving entry) }
  | some (.saving entry) => { c with db := some entry.value, flushes := c.flushes.set i (.deleting entry) }
  | some (.deleting entry) =>
    match c.pending with
    | none => { c with flushes := c.flushes.eraseIdx i }
    | some currentEntry =>
      if currentEntry.sequence ≠ entry.sequence then { c with flushes := c.flushes.set i .reading }
      else { c with pending := none, flushes := c.flushes.eraseIdx i }

/-- The first step of `ClearDNSCache`. -/
def clearPending (c : KeyCache Raw) : KeyCache Raw :=
  { c with pending := none, clears := c.clears + 1, lastSaved := none }

/-- The second step of `ClearDNSCache`, of a call that has made the first. -/
def clearDatabase (c : KeyCache Raw) : KeyCache Raw :=
  if c.clears = 0 then c else { c with db := none, clears := c.clears - 1 }

inductive Op (Raw : Type) where
  | save (rawMessage : Raw) (expireAt : Seconds)
  | flush (i : Nat)
  | clearPending
  | clearDatabase

def step (c : KeyCache Raw) : Op Raw → KeyCache Raw
  | .save rawMessage expireAt => c.saveDNSCacheAsync rawMessage expireAt
  | .flush i => c.flushPendingDNSCache i
  | .clearPending => c.clearPending
  | .clearDatabase => c.clearDatabase

def system (Raw : Type) : System (KeyCache Raw) (Op Raw) := .ofStep (· = {}) step

theorem reach_foldl {ok : KeyCache Raw → Op Raw → Prop} {ops : List (Op Raw)} (hops : Allowed step ok {} ops) :
    Reach (system Raw) ok (ops.foldl step {}) := by
  have hinit : Reach (system Raw) ok {} := .init rfl
  exact hinit.foldl ops hops

/-- `ClearDNSCache` is called while no goroutine writes, and nothing is saved until
it returns. -/
def Op.Careful (c : KeyCache Raw) : Op Raw → Prop
  | .save _ _ => c.clears = 0
  | .clearPending => c.flushes = []
  | _ => True

/-! ## One goroutine -/

/-- The entry has been read from the pending one, or from one before it. -/
def HasRead (c : KeyCache Raw) (entry : SaveDNSCacheEntry Raw) : Prop :=
  ∃ current, c.pending = some current ∧ entry.sequence ≤ current.sequence ∧
    (current.sequence = entry.sequence → current.value = entry.value)

/-- What a goroutine knows in the places of its loop. -/
def Knows (c : KeyCache Raw) : Flush Raw → Prop
  | .reading => ∃ current, c.pending = some current
  | .saving entry => c.HasRead entry
  | .deleting entry => c.HasRead entry ∧ c.db = some entry.value

/-- Nothing is pending without the one goroutine that writes it, and what is loaded
is what was saved last. -/
structure Inv (c : KeyCache Raw) : Prop where
  flushes : (c.flushes = [] ∧ c.pending = none) ∨ (c.clears = 0 ∧ ∃ flush, c.flushes = [flush] ∧ c.Knows flush)
  saving : ∀ entry, c.pending = some entry → entry.saving = true
  loads : c.clears = 0 → c.loadDNSCache = c.lastSaved
  cleared : c.clears ≠ 0 → c.lastSaved = none

variable {c : KeyCache Raw} {entry : SaveDNSCacheEntry Raw}

theorem Knows.pending {flush : Flush Raw} (h : c.Knows flush) : ∃ current, c.pending = some current := by
  cases flush with
  | reading => exact h
  | saving entry =>
    obtain ⟨current, hpending, -⟩ := h
    exact ⟨current, hpending⟩
  | deleting entry =>
    obtain ⟨⟨current, hpending, -⟩, -⟩ := h
    exact ⟨current, hpending⟩

theorem HasRead.save (h : c.HasRead entry) (rawMessage : Raw) (expireAt : Seconds) :
    (c.saveDNSCacheAsync rawMessage expireAt).HasRead entry := by
  obtain ⟨current, hpending, hle, -⟩ := h
  refine ⟨_, rfl, ?_, ?_⟩
  · simp only [hpending, map_some, getD_some]
    omega
  · simp only [hpending, map_some, getD_some]
    omega

theorem Knows.save {flush : Flush Raw} (h : c.Knows flush) (rawMessage : Raw) (expireAt : Seconds) :
    (c.saveDNSCacheAsync rawMessage expireAt).Knows flush := by
  cases flush with
  | reading => exact ⟨_, rfl⟩
  | saving entry => exact HasRead.save h rawMessage expireAt
  | deleting entry => exact ⟨h.1.save rawMessage expireAt, h.2⟩

theorem Inv.save (h : c.Inv) (hclears : c.clears = 0) (rawMessage : Raw) (expireAt : Seconds) :
    (c.saveDNSCacheAsync rawMessage expireAt).Inv := by
  refine ⟨.inr ⟨hclears, ?_⟩, ?_, fun _ => rfl, fun hne => absurd hclears hne⟩
  · rcases h.flushes with ⟨hflushes, hpending⟩ | ⟨-, flush, hflushes, hknows⟩
    · refine ⟨.reading, ?_, _, rfl⟩
      simp [saveDNSCacheAsync, hflushes, hpending]
    · obtain ⟨current, hpending⟩ := hknows.pending
      refine ⟨flush, ?_, hknows.save rawMessage expireAt⟩
      simp [saveDNSCacheAsync, hflushes, hpending, h.saving current hpending]
  · rintro _ ⟨⟩
    rfl

theorem clears_flush (c : KeyCache Raw) (i : Nat) : (c.flushPendingDNSCache i).clears = c.clears := by
  unfold flushPendingDNSCache
  repeat (first | rfl | split)

theorem lastSaved_flush (c : KeyCache Raw) (i : Nat) : (c.flushPendingDNSCache i).lastSaved = c.lastSaved := by
  unfold flushPendingDNSCache
  repeat (first | rfl | split)

attribute [local simp] flushPendingDNSCache loadDNSCache

theorem Inv.flush (h : c.Inv) (i : Nat) : (c.flushPendingDNSCache i).Inv := by
  rcases h.flushes with ⟨hflushes, -⟩ | ⟨hclears, flush, hflushes, hknows⟩
  · simpa [hflushes] using h
  cases i with
  | succ i => simpa [hflushes] using h
  | zero =>
    have hloads := h.loads hclears
    cases flush with
    | reading =>
      obtain ⟨current, hpending⟩ := hknows
      have heq : c.flushPendingDNSCache 0 = { c with flushes := [.saving current] } := by
        simp [hflushes, hpending]
      rw [heq]
      exact ⟨.inr ⟨hclears, _, rfl, current, hpending, le_rfl, fun _ => rfl⟩, h.saving, h.loads, h.cleared⟩
    | saving entry =>
      have heq : c.flushPendingDNSCache 0 = { c with db := some entry.value, flushes := [.deleting entry] } := by
        simp [hflushes]
      obtain ⟨current, hpending, hread⟩ := hknows
      rw [heq]
      refine ⟨.inr ⟨hclears, _, rfl, ⟨current, hpending, hread⟩, rfl⟩, h.saving, fun _ => ?_, h.cleared⟩
      simpa [hpending] using hloads
    | deleting entry =>
      obtain ⟨⟨current, hpending, hle, hvalue⟩, hdb⟩ := hknows
      by_cases hsequence : current.sequence = entry.sequence
      · -- the database already holds what the pending entry does
        have heq : c.flushPendingDNSCache 0 = { c with pending := none, flushes := [] } := by
          simp [hflushes, hpending, hsequence]
        rw [heq]
        refine ⟨.inl ⟨rfl, rfl⟩, fun _ hnone => (some_ne_none _ hnone.symm).elim, fun _ => ?_, h.cleared⟩
        simpa [hpending, hdb, hvalue hsequence] using hloads
      · have heq : c.flushPendingDNSCache 0 = { c with flushes := [.reading] } := by
          simp [hflushes, hpending, hsequence]
        rw [heq]
        exact ⟨.inr ⟨hclears, _, rfl, current, hpending⟩, h.saving, h.loads, h.cleared⟩

theorem Inv.clearPending (hflushes : c.flushes = []) : c.clearPending.Inv where
  flushes := .inl ⟨hflushes, rfl⟩
  saving := fun _ hnone => (some_ne_none _ hnone.symm).elim
  loads := fun hzero => absurd hzero (Nat.succ_ne_zero _)
  cleared := fun _ => rfl

theorem Inv.clearDatabase (h : c.Inv) : c.clearDatabase.Inv := by
  unfold KeyCache.clearDatabase
  split
  · exact h
  · next hne =>
    have hlast := h.cleared hne
    rcases h.flushes with ⟨hflushes, hpending⟩ | ⟨hclears, -⟩
    · refine ⟨.inl ⟨hflushes, hpending⟩, h.saving, fun _ => ?_, fun _ => hlast⟩
      simp [hpending, hlast]
    · exact absurd hclears hne

theorem Inv.step (h : c.Inv) (op : Op Raw) (hop : op.Careful c) : (c.step op).Inv := by
  cases op with
  | save rawMessage expireAt => exact h.save hop rawMessage expireAt
  | flush i => exact h.flush i
  | clearPending => exact Inv.clearPending hop
  | clearDatabase => exact h.clearDatabase

theorem Inv.empty : Inv ({} : KeyCache Raw) :=
  ⟨.inl ⟨rfl, rfl⟩, fun _ hnone => (some_ne_none _ hnone.symm).elim, fun _ => rfl, fun _ => rfl⟩

theorem Inv.of_reach (h : Reach (system Raw) (fun c op => op.Careful c) c) : c.Inv := by
  refine Reach.inv Inv ?_ ?_ h
  · rintro _ rfl
    exact .empty
  · rintro c op _ hc hop rfl
    exact hc.step op hop

/-- While the cache is not being cleared, what is loaded is what was saved last since
it was, whatever the goroutines are at. -/
theorem load_last_saved (h : Reach (system Raw) (fun c op => op.Careful c) c) (hclears : c.clears = 0) :
    c.loadDNSCache = c.lastSaved :=
  (Inv.of_reach h).loads hclears

/-- One response is saved and written, the cache is cleared, another is saved. -/
def sampleOps : List (Op String) :=
  [.save "old" 7, .flush 0, .flush 0, .flush 0, .clearPending, .clearDatabase, .save "new" 9, .flush 0, .flush 0,
    .flush 0]

theorem load_last_saved_sample :
    (sampleOps.foldl step {}).flushes = [] ∧ (sampleOps.foldl step {}).loadDNSCache = some ("new", 9) := by
  have hops : Allowed step (fun c op => op.Careful c) {} sampleOps :=
    ⟨rfl, trivial, trivial, trivial, rfl, trivial, rfl, trivial, trivial, trivial, trivial⟩
  exact ⟨rfl, load_last_saved (reach_foldl hops) rfl⟩

/-- A goroutine has read its entry when the cache is cleared, and writes it then. -/
def staleOps : List (Op String) :=
  [.save "old" 7, .flush 0, .clearPending, .clearDatabase, .flush 0, .flush 0]

/-- The same, with another response saved before the goroutine writes. -/
def lostOps : List (Op String) :=
  [.save "old" 7, .flush 0, .clearPending, .clearDatabase, .save "new" 9, .flush 0, .flush 0, .flush 0]

/-- What was cleared comes back. Of two responses the new one is lost: the goroutine
takes its entry for the one it has read, by its sequence, and deletes it. -/
theorem cleared_comes_back :
    (∃ c, Reach (system String) (fun _ _ => True) c ∧ c.flushes = [] ∧ c.clears = 0 ∧ c.lastSaved = none ∧
      c.loadDNSCache = some ("old", 7)) ∧
    ∃ c, Reach (system String) (fun _ _ => True) c ∧ c.flushes = [] ∧ c.clears = 0 ∧
      c.lastSaved = some ("new", 9) ∧ c.loadDNSCache = some ("old", 7) :=
  ⟨⟨staleOps.foldl step {}, reach_foldl (by simp [Allowed, staleOps]), rfl, rfl, rfl, rfl⟩,
    lostOps.foldl step {}, reach_foldl (by simp [Allowed, lostOps]), rfl, rfl, rfl, rfl⟩

/-! ## What becomes of a save -/

attribute [local simp] List.replicate step

/-- Wherever the goroutine is, five steps of it write what was saved last, and end it. -/
theorem written_in_five (h : Reach (system Raw) (fun c op => op.Careful c) c) (hclears : c.clears = 0) :
    let c' := (List.replicate 5 (.flush 0)).foldl step c
    c'.flushes = [] ∧ c'.pending = none ∧ c'.db = c.lastSaved := by
  have hinv := Inv.of_reach h
  rw [← hinv.loads hclears]
  rcases hinv.flushes with ⟨hflushes, hpending⟩ | ⟨-, flush, hflushes, hknows⟩
  · simp [hflushes, hpending]
  cases flush with
  | reading =>
    obtain ⟨current, hpending⟩ := hknows
    simp [hflushes, hpending]
  | saving entry =>
    obtain ⟨current, hpending, -, hvalue⟩ := hknows
    by_cases hsequence : current.sequence = entry.sequence
    · simp [hflushes, hpending, hsequence, hvalue hsequence]
    · -- it writes an older entry, and goes on with the pending one
      simp [hflushes, hpending, hsequence]
  | deleting entry =>
    obtain ⟨⟨current, hpending, -, hvalue⟩, hdb⟩ := hknows
    by_cases hsequence : current.sequence = entry.sequence
    · simp [hflushes, hpending, hsequence, hvalue hsequence, hdb]
    · simp [hflushes, hpending, hsequence]

theorem written_in_five_rewritten :
    ((List.replicate 5 (.flush 0)).foldl step (List.foldl step {} [.save "old" 7, .flush 0, .save "new" 9])).db =
      some ("new", 9) :=
  (written_in_five (reach_foldl (by exact ⟨rfl, trivial, rfl, trivial⟩)) rfl).2.2

end KeyCache

end Singlink.Dns
