import Singlink.Route.Router
import Mathlib.Data.List.Nodup
import Mathlib.Data.Option.Basic
/-!
# What routing keeps of a connection

The parties that get a connection from the router should read the client's
bytes in their order, and the packets received, each once. Sniff actions take
pieces off the connection, and what becomes of a piece depends on the others:
`sniffs` lists the sniff actions of a run, each with the state it finds, and
`Trace` is the run seen from them. A step of a trace says what one sniff action
takes and where it puts it; from that the buffers at the end of the rules follow
by induction, and with them what each party reads.
-/

namespace Singlink.Route.Router

open Lib Sniff List Option Prod State

variable {X : Type} (r : Router X)

/-! ## Runs as the sniff actions see them -/

/-- The bytes that are still on the connection. -/
def State.stream (s : State X) : List UInt8 := streamBytes (s.inputConn.getD [])

def State.arriving (s : State X) : List Packet := packetsOf (s.inputPacketConn.getD [])

def State.view (s : State X) :
    Option (List ReadEvent) × Option (List PacketEvent) × List (List UInt8) × List Nat × List Packet :=
  (s.inputConn, s.inputPacketConn, s.buffers, s.packetBuffers, s.heap)

/-- The sniff actions that the loop over the rules carries out, each with the
state it finds. -/
def sniffs : List (Rule X) → State X → List (SniffAction X × State X)
  | [], _ => []
  | rule :: rules, s =>
    if rule.isMatch s.metadata then
      let later := match r.takeAction false false rule.action s with
        | .next s' => sniffs rules s'
        | _ => []
      match rule.action with
      | .sniff a => (a, s) :: later
      | _ => later
    else sniffs rules s

/-- From a state to another by these sniff actions, with steps between them that
only change the metadata. -/
inductive Trace : State X → List (SniffAction X × State X) → State X → Prop
  | done {s s' : State X} : s'.view = s.view → Trace s [] s'
  | skip {s s₁ s' : State X} {l : List (SniffAction X × State X)} :
      s₁.view = s.view → Trace s₁ l s' → Trace s l s'
  | sniff {s s₁ s' : State X} {a : SniffAction X} {l : List (SniffAction X × State X)} :
      r.takeSniff a s = .next s₁ → Trace s₁ l s' → Trace s ((a, s) :: l) s'

variable {s s' : State X} {conn : List ReadEvent} {a : SniffAction X} {l : List (SniffAction X × State X)}
  {m : InboundContext X} {h : Party × Cached UInt8} {natConn : Bool}

theorem takeAction_view {action : Action X} (hno : ∀ a, action ≠ .sniff a)
    (h : r.takeAction false false action s = .next s' ∨ r.takeAction false false action s = .select s') :
    s'.view = s.view := by
  cases action with
  | sniff a => exact absurd rfl (hno a)
  | resolve server lookup =>
    simp only [takeAction, Action.options?] at h
    cases hres : r.actionResolve server lookup s.metadata with
    | ok m =>
      rw [hres] at h
      rcases h with h | h <;> cases h
      rfl
    | error err =>
      rw [hres] at h
      rcases h with h | h <;> cases h
  | bypass outbound options =>
    by_cases hname : outbound = ""
    · simp only [takeAction, Action.options?, hname] at h
      rcases h with h | h <;> cases h
      rfl
    · simp [takeAction, Action.options?, hname] at h
      cases h
      rfl
  | _ =>
    rcases h with h | h <;> cases h
    rfl

theorem takeAction_sniff (a : SniffAction X) (s : State X) :
    r.takeAction false false (.sniff a) s = r.takeSniff a s := rfl

theorem takeSniff_ne_select (a : SniffAction X) (s s' : State X) : r.takeSniff a s ≠ .select s' := by
  unfold takeSniff
  rcases r.actionSniff a s with ⟨buffer, refs, s₁, _ | err⟩ <;> exact fun h => nomatch h

theorem trace_of_matchRules {rules : List (Rule X)} {action : Option (Action X)}
    (h : r.matchRules false false rules s = .ok (action, s')) : r.Trace s (r.sniffs rules s) s' := by
  induction rules generalizing s with
  | nil =>
    cases h
    exact .done rfl
  | cons rule rules ih =>
    rw [matchRules] at h
    rw [sniffs]
    by_cases hmatch : rule.isMatch s.metadata = true
    · simp only [hmatch, if_true] at h ⊢
      by_cases hsniff : ∃ a, rule.action = .sniff a
      · obtain ⟨a, ha⟩ := hsniff
        rw [ha, takeAction_sniff] at h
        simp only [ha, takeAction_sniff]
        cases hstep : r.takeSniff a s with
        | next s₁ =>
          rw [hstep] at h
          exact .sniff hstep (ih h)
        | select s₁ => exact absurd hstep (r.takeSniff_ne_select a s s₁)
        | fail err =>
          rw [hstep] at h
          cases h
      · have hno : ∀ a, rule.action ≠ .sniff a := fun a ha => hsniff ⟨a, ha⟩
        have hlater : r.Trace s (match r.takeAction false false rule.action s with
            | .next s₁ => r.sniffs rules s₁
            | _ => []) s' := by
          cases hstep : r.takeAction false false rule.action s with
          | next s₁ =>
            rw [hstep] at h
            exact .skip (r.takeAction_view hno (.inl hstep)) (ih h)
          | select s₁ =>
            rw [hstep] at h
            cases h
            exact .done (r.takeAction_view hno (.inr hstep))
          | fail err =>
            rw [hstep] at h
            cases h
        split
        · rename_i a ha
          exact absurd ha (hno a)
        · exact hlater
    · simp only [hmatch, if_false, Bool.false_eq_true] at h ⊢
      exact ih h

/-! ## Streams -/

/-- The bytes that a sniff action takes off the connection. -/
def took (a : SniffAction X) (s : State X) : List UInt8 := consumed s.stream (r.actionSniff a s).2.2.1.stream

/-- What a sniff action makes of a stream: the bytes it takes off the connection
become its buffer, unless there are none. -/
structure StreamSniff (a : SniffAction X) (s s' : State X) (buffer : Option (List UInt8)) : Prop where
  conn : s'.inputConn.isSome = true
  bytes : buffer.getD [] ++ s'.stream = s.stream
  nonempty : buffer ≠ some []
  buffers : s'.buffers = s.buffers

theorem keepBuffer_getD (buffer : List UInt8) : (keepBuffer buffer).getD [] = buffer := by
  cases buffer <;> rfl

theorem keepBuffer_ne_nil (buffer : List UInt8) : keepBuffer buffer ≠ some [] := by
  cases buffer <;> simp [keepBuffer]

theorem sniffStream_spec (a : SniffAction X) (hs : s.inputConn = some conn) :
    StreamSniff a s (r.sniffStream a s conn).2 (r.sniffStream a s conn).1 := by
  have hstay : StreamSniff a s s none := ⟨by rw [hs]; rfl, rfl, nofun, rfl⟩
  rw [sniffStream]
  split
  · exact hstay
  · have hbytes := peekStream_bytes r.bufferSize s.buffers
      (if a.streamSniffers.isEmpty then r.streamSniffers else a.streamSniffers) s.metadata conn
    have hstream : s.stream = streamBytes conn := by rw [stream, hs]; rfl
    refine ⟨rfl, ?_, keepBuffer_ne_nil _, rfl⟩
    rw [hstream, ← hbytes, keepBuffer_getD]
    rfl

theorem actionSniff_stream (a : SniffAction X) (hs : s.inputConn.isSome = true) :
    ∃ buffer s', r.actionSniff a s = (buffer, [], s', none) ∧ StreamSniff a s s' buffer := by
  obtain ⟨conn, hconn⟩ := isSome_iff_exists.1 hs
  rw [actionSniff]
  split
  · exact ⟨none, s, rfl, hs, rfl, nofun, rfl⟩
  · refine ⟨(r.sniffStream a s conn).1, (r.sniffStream a s conn).2, ?_, r.sniffStream_spec a hconn⟩
    rw [hconn]

theorem takeSniff_stream (hs : s.inputConn.isSome = true) (h : r.takeSniff a s = .next s') :
    s'.inputConn.isSome = true ∧ r.took a s ++ s'.stream = s.stream ∧
      s'.buffers = s.buffers ++ [r.took a s].filter (!·.isEmpty) := by
  obtain ⟨buffer, s₁, hact, hconn, hbytes, hnonempty, hbuffers⟩ := r.actionSniff_stream a hs
  have htook : r.took a s = buffer.getD [] := by
    rw [took, hact, ← hbytes]
    exact consumed_append _ _
  rw [takeSniff, hact] at h
  rw [htook]
  cases buffer with
  | none =>
    cases h
    exact ⟨hconn, hbytes, by rw [hbuffers]; simp⟩
  | some buffer =>
    cases h
    refine ⟨hconn, hbytes, ?_⟩
    have hne : buffer ≠ [] := fun h => hnonempty (congrArg some h)
    simp [hbuffers, hne]

/-- The pieces taken one after the other are the beginning of the stream, and
they are the buffers at the end. -/
theorem Trace.stream (h : r.Trace s l s') (hs : s.inputConn.isSome = true) :
    (l.map fun p => r.took p.1 p.2).flatten ++ s'.stream = s.stream ∧
      s'.buffers = s.buffers ++ (l.map fun p => r.took p.1 p.2).filter (!·.isEmpty) := by
  induction h with
  | done hview =>
    simp only [view, Prod.mk.injEq] at hview
    obtain ⟨hconn, -, hbuffers, -⟩ := hview
    exact ⟨by simp [State.stream, hconn], by simp [hbuffers]⟩
  | skip hview _ ih =>
    simp only [view, Prod.mk.injEq] at hview
    obtain ⟨hconn, -, hbuffers, -⟩ := hview
    obtain ⟨hbytes, hend⟩ := ih (hconn ▸ hs)
    exact ⟨by rw [hbytes, State.stream, hconn]; rfl, by rw [hend, hbuffers]⟩
  | @sniff s s₁ s' a l hstep _ ih =>
    obtain ⟨hconn, hbytes, hbuffers⟩ := r.takeSniff_stream hs hstep
    obtain ⟨hrest, hend⟩ := ih hconn
    refine ⟨?_, ?_⟩
    · rw [map_cons, flatten_cons, append_assoc, hrest, hbytes]
    · rw [hend, hbuffers, append_assoc, ← filter_append]
      rfl

/-! ## Packets -/

/-- The packets that a sniff action takes off the connection. -/
def tookPackets (a : SniffAction X) (s : State X) : List Packet :=
  consumed s.arriving (r.actionSniff a s).2.2.1.arriving

/-- The sniff action is not skipped, and all packets buffered so far ask it for
more data, so it goes on to read. -/
def readsOn (a : SniffAction X) (s : State X) : Bool :=
  !(skip s.metadata || s.metadata.protocol != "") &&
    !(a.packetSniffers.isEmpty && !a.streamSniffers.isEmpty || sniffedBefore a s.metadata) &&
    (r.resniff a s.heap s.packetBuffers s.metadata).1

attribute [local simp] actionSniff readPackets readsOn sniffPackets

/-- The reading loop gives every packet it reads a buffer of its own. -/
theorem readPackets_spec (a : SniffAction X) (refs : List Nat) (m : InboundContext X) (heap : List Packet)
    (conn : List PacketEvent) : ∃ new, (r.readPackets a refs m heap conn).heap = heap ++ new ∧
      new ++ packetsOf (r.readPackets a refs m heap conn).conn = packetsOf conn ∧
      (r.readPackets a refs m heap conn).packetBuffers = refs ++ range' heap.length new.length := by
  induction conn generalizing refs m heap with
  | nil => exact ⟨[], by simp, rfl, by simp⟩
  | cons event conn ih =>
    cases event with
    | packet p =>
      have hpackets : packetsOf (.packet p :: conn) = p :: packetsOf conn := rfl
      rw [readPackets]
      split
      · obtain ⟨new, hheap, hnew, hrefs⟩ := ih (refs ++ [heap.length]) (r.sniffPacket a m p.data) (heap ++ [p])
        refine ⟨p :: new, by rw [hheap, append_assoc]; rfl, ?_, ?_⟩
        · rw [cons_append, hnew, hpackets]
        · have hlength : (p :: new).length = new.length + 1 := rfl
          rw [hrefs, append_assoc, length_append, hlength]
          rfl
      · exact ⟨[p], rfl, rfl, rfl⟩
    | _ => exact ⟨[], by simp, rfl, by simp⟩

/-- What a sniff action makes of packets: with `reads` it returns the buffers it
was given together with those of the packets it takes off the connection, and
else nothing. -/
structure PacketsSniffed (s s' : State X) (refs : List Nat) (new : List Packet) (reads : Bool) : Prop where
  noStream : s'.inputConn = none
  conn : s'.inputPacketConn.isSome = true
  packets : new ++ s'.arriving = s.arriving
  heap : s'.heap = s.heap ++ new
  kept : s'.packetBuffers = s.packetBuffers
  silent : reads = false → new = []
  returned : refs = if reads then s.packetBuffers ++ List.range' s.heap.length new.length else []

theorem PacketsSniffed.quiet (hnone : s.inputConn = none) (hs : s.inputPacketConn.isSome = true)
    (hview : s'.view = s.view) : PacketsSniffed s s' [] [] false := by
  simp only [view, Prod.mk.injEq] at hview
  obtain ⟨hconn, hpackets, -, hrefs, hheap⟩ := hview
  refine ⟨hconn ▸ hnone, hpackets ▸ hs, ?_, by simp [hheap], hrefs, fun _ => rfl, rfl⟩
  simp [arriving, hpackets]

theorem actionSniff_packets (a : SniffAction X) (hnone : s.inputConn = none) (hs : s.inputPacketConn.isSome = true) :
    ∃ refs s' err new, r.actionSniff a s = (none, refs, s', err) ∧ PacketsSniffed s s' refs new (r.readsOn a s) := by
  obtain ⟨conn, hconn⟩ := isSome_iff_exists.1 hs
  by_cases hskip : (skip s.metadata || s.metadata.protocol != "") = true
  · have hreads : r.readsOn a s = false := by simp [hskip]
    refine ⟨[], s, none, [], ?_, hreads ▸ .quiet hnone hs rfl⟩
    simp [hskip]
  by_cases hbefore : (a.packetSniffers.isEmpty && !a.streamSniffers.isEmpty || sniffedBefore a s.metadata) = true
  · have hreads : r.readsOn a s = false := by
      simp [hbefore]
    refine ⟨[], s, none, [], ?_, hreads ▸ .quiet hnone hs rfl⟩
    simp [hskip, hnone, hconn, hbefore]
  rcases hre : r.resniff a s.heap s.packetBuffers s.metadata with ⟨_ | _, m⟩
  · have hreads : r.readsOn a s = false := by simp [hre]
    refine ⟨[], { s with metadata := r.sniffed a m.sniffError m }, none, [], ?_, hreads ▸ .quiet hnone hs rfl⟩
    simp [hskip, hnone, hconn, hbefore, hre]
  · -- every buffered packet has asked for more, so the loop that reads starts
    have hreads : r.readsOn a s = true := by simp [hskip, hbefore, hre]
    obtain ⟨new, hheap, hnew, hrefs⟩ := r.readPackets_spec a s.packetBuffers m s.heap conn
    generalize hout : r.readPackets a s.packetBuffers m s.heap conn = out at hheap hnew hrefs
    refine ⟨out.packetBuffers, { s with metadata := out.metadata, heap := out.heap, inputPacketConn := some out.conn },
      out.fatalErr, new, ?_, ?_⟩
    · simp [hskip, hnone, hconn, hbefore, hre, hout]
    · refine ⟨hnone, rfl, ?_, hheap, rfl, fun h => Bool.noConfusion (h.symm.trans hreads), ?_⟩
      · rw [arriving, arriving, hconn]
        exact hnew
      · rw [hreads]
        exact hrefs

theorem takeSniff_packets (hnone : s.inputConn = none)
    (hs : s.inputPacketConn.isSome = true) (h : r.takeSniff a s = .next s') :
    s'.inputConn = none ∧ s'.inputPacketConn.isSome = true ∧ r.tookPackets a s ++ s'.arriving = s.arriving ∧
      s'.heap = s.heap ++ r.tookPackets a s ∧ (r.readsOn a s = false → r.tookPackets a s = []) ∧
      s'.packetBuffers = s.packetBuffers ++ if r.readsOn a s then
        s.packetBuffers ++ range' s.heap.length (r.tookPackets a s).length else [] := by
  obtain ⟨refs, s₁, err, new, hact, hnone₁, hs₁, hpackets, hheap, hkept, hsilent, hrefs⟩ :=
    r.actionSniff_packets a hnone hs
  have htook : r.tookPackets a s = new := by
    rw [tookPackets, hact, ← hpackets]
    exact consumed_append _ _
  rw [takeSniff, hact] at h
  cases err with
  | some err => cases h
  | none =>
    cases h
    rw [htook, ← hrefs, ← hkept]
    exact ⟨hnone₁, hs₁, hpackets, hheap, hsilent, rfl⟩

/-- The action reads on although packets are buffered, so these are listed once
more. -/
def repeats (a : SniffAction X) (s : State X) : Bool := !s.packetBuffers.isEmpty && r.readsOn a s

/-- How the packet buffers list the packets read: each packet is listed first in
the order of arrival, and `repeated` says whether some are listed again. -/
structure Buffered (refs : List Nat) (heap : List Packet) (repeated : Bool) : Prop where
  firsts : refs.eraseDups = List.range heap.length
  once : repeated = false → refs = List.range heap.length
  more : repeated = true → heap.length < refs.length

variable {repeated : Bool}

theorem Buffered.lt_length {refs : List Nat} {heap : List Packet} (h : Buffered refs heap repeated)
    {i : Nat} (hi : i ∈ refs) : i < heap.length := by
  rw [← mem_eraseDups, h.firsts] at hi
  exact mem_range.1 hi

theorem Buffered.empty : Buffered [] [] false := ⟨rfl, fun _ => rfl, nofun⟩

theorem Buffered.append {refs : List Nat} {heap : List Packet} (h : Buffered refs heap repeated) (new : List Packet) :
    Buffered (refs ++ (refs ++ range' heap.length new.length)) (heap ++ new) (repeated || !refs.isEmpty) := by
  refine ⟨?_, ?_, ?_⟩
  · rw [length_append]
    exact eraseDups_repeat h.firsts _
  · intro hno
    obtain ⟨hrepeated, hempty⟩ := Bool.or_eq_false_iff.1 hno
    have hrefs : refs = [] := by simpa using hempty
    have hheap : heap.length = 0 := by simpa [hrefs] using h.once hrepeated
    simp [hrefs, hheap, range_eq_range']
  · intro hyes
    have hpos : heap.length < refs.length + refs.length := by
      cases hrepeated : repeated with
      | true =>
        have := h.more hrepeated
        omega
      | false =>
        have hlength : refs.length = heap.length := by simp [h.once hrepeated]
        have hne : refs ≠ [] := by simpa [hrepeated] using hyes
        have := length_pos_iff.2 hne
        omega
    simp only [length_append, length_range']
    omega

theorem buffered_takeSniff (hnone : s.inputConn = none)
    (hs : s.inputPacketConn.isSome = true) (h : r.takeSniff a s = .next s')
    (hb : Buffered s.packetBuffers s.heap repeated) :
    Buffered s'.packetBuffers s'.heap (repeated || r.repeats a s) := by
  obtain ⟨-, -, -, hheap, hsilent, hrefs⟩ := r.takeSniff_packets hnone hs h
  rw [hheap, hrefs, repeats]
  cases hreads : r.readsOn a s with
  | false => simpa [hsilent hreads] using hb
  | true => simpa using hb.append (r.tookPackets a s)

/-- The packets taken one after the other are the first to arrive, and at the end
they are listed as the sniff actions of the run say. -/
theorem Trace.packets (h : r.Trace s l s') (hnone : s.inputConn = none) (hs : s.inputPacketConn.isSome = true)
    (hb : Buffered s.packetBuffers s.heap repeated) : s'.heap = s.heap ++ l.flatMap (fun p => r.tookPackets p.1 p.2) ∧
      l.flatMap (fun p => r.tookPackets p.1 p.2) ++ s'.arriving = s.arriving ∧
      Buffered s'.packetBuffers s'.heap (repeated || l.any fun p => r.repeats p.1 p.2) := by
  induction h generalizing repeated with
  | done hview =>
    simp only [view, Prod.mk.injEq] at hview
    obtain ⟨-, hconn, -, hrefs, hheap⟩ := hview
    refine ⟨by simp [hheap], by simp [arriving, hconn], ?_⟩
    rw [hrefs, hheap]
    simpa using hb
  | skip hview _ ih =>
    simp only [view, Prod.mk.injEq] at hview
    obtain ⟨hstream, hconn, -, hrefs, hheap⟩ := hview
    obtain ⟨hend, hpackets, hbuf⟩ := ih (hstream ▸ hnone) (hconn ▸ hs) (by rw [hrefs, hheap]; exact hb)
    exact ⟨by rw [hend, hheap], by rw [hpackets, arriving, hconn]; rfl, hbuf⟩
  | @sniff s s₁ s' a l hstep _ ih =>
    obtain ⟨hnone₁, hs₁, hpackets, hheap, -, -⟩ := r.takeSniff_packets hnone hs hstep
    obtain ⟨hend, hrest, hbuf⟩ := ih hnone₁ hs₁ (r.buffered_takeSniff hnone hs hstep hb)
    refine ⟨?_, ?_, ?_⟩
    · rw [hend, hheap, append_assoc]
      rfl
    · rw [flatMap_cons, append_assoc, hrest, hpackets]
    · rw [any_cons, ← Bool.or_assoc]
      exact hbuf

/-! ## What the parties read of packets -/

section Replay
variable {refs : List Nat} {heap : List Packet} {repeated : Bool}

theorem takeCells_once (clears : Bool) : takeCells clears (heap[·]?) (range heap.length) = heap.map some := by
  rw [takeCells_of_nodup clears _ nodup_range, map_getElem?_range]

theorem readAll_cachePackets (rest : List Packet) : (r.cachePackets (.bare rest) refs heap).readAll
      = (takeCells r.putClears (heap[·]?) refs).reduceOption.reverse ++ rest := by
  rw [cachePackets, Cached.readAll_wrap]
  generalize takeCells r.putClears (heap[·]?) refs = found
  congr 1
  induction found with
  | nil => rfl
  | cons o found ih => cases o <;> simpa using ih

/-- The packets in front are the packets read from last to first, provided a
buffer that is listed again is found empty. -/
theorem cachePackets_iff (hb : Buffered refs heap repeated) (rest : List Packet) :
    (r.cachePackets (.bare rest) refs heap).readAll = heap ++ rest
      ↔ heap.reverse = heap ∧ (r.putClears = true ∨ repeated = false) := by
  rw [readAll_cachePackets, append_left_inj]
  cases hclears : r.putClears with
  | true =>
    have hfound : (takeCells true (heap[·]?) refs).reduceOption = heap := by
      rw [reduceOption_takeCells_true, hb.firsts, map_getElem?_range, reduceOption_map_some]
    simp [hfound]
  | false =>
    cases hrepeated : repeated with
    | false =>
      rw [hb.once hrepeated, takeCells_once, reduceOption_map_some]
      simp
    | true =>
      -- nothing is found empty, so there are more packets in front than were read
      have hlength : (takeCells false (heap[·]?) refs).reduceOption.length = refs.length := by
        rw [takeCells_false, reduceOption_length_eq_iff.2, length_map]
        intro o ho
        obtain ⟨i, hi, rfl⟩ := mem_map.1 ho
        simpa using hb.lt_length hi
      have hmore := hb.more hrepeated
      refine ⟨fun h => ?_, by simp⟩
      have := congrArg length h
      rw [length_reverse] at this
      omega

theorem exchanged_iff (found : List (Option Packet)) (rest : List Packet) :
    (PacketHandover.exchanged found (.bare rest)).packets = (heap ++ rest).map some ↔ found = heap.map some := by
  rw [map_append]
  exact append_left_inj _

/-- The hijacker finds each packet where it is listed, so none may be listed
twice. -/
theorem hijackDNSPacket_iff (hb : Buffered refs heap repeated) (natConn : Bool) (rest : List Packet) :
    (r.hijackDNSPacket natConn (.bare rest) refs heap).packets = (heap ++ rest).map some
      ↔ (natConn = true ∨ heap.reverse = heap) ∧ repeated = false := by
  have htwice : ∀ found : List (Option Packet), repeated = true → found.length = refs.length →
      found ≠ heap.map some := by
    intro found hrepeated hlength h
    have hmore := hb.more hrepeated
    have := congrArg length h
    rw [length_map] at this
    omega
  cases natConn with
  | true =>
    refine (exchanged_iff _ _).trans ?_
    cases hrepeated : repeated with
    | false =>
      rw [hb.once hrepeated, takeCells_once]
      simp
    | true => simpa using htwice _ hrepeated (length_takeCells _ _ _)
  | false =>
    refine (exchanged_iff _ _).trans ?_
    cases hrepeated : repeated with
    | false =>
      have hfound : takeCells true (heap[·]?) refs.reverse = heap.reverse.map some := by
        rw [hb.once hrepeated, takeCells_of_nodup true _ (nodup_reverse.2 nodup_range), map_reverse,
          map_getElem?_range, ← map_reverse]
      rw [hfound, (map_injective_iff.2 (some_injective _)).eq_iff]
      simp
    | true => simpa using htwice _ hrepeated ((length_takeCells _ _ _).trans length_reverse)

end Replay

/-! ## The parties -/

/-- The call gets to the rules: no detour, and no DNS query of a TUN inbound. -/
def reachesRules (m : InboundContext X) : Bool :=
  m.inboundDetour == "" && !(m.inboundType == "tun" && m.protocol == "dns")

theorem reachesRules_of_detour (h : (m.inboundDetour != "") = true) : reachesRules m = false := by
  simp only [bne_iff_ne] at h
  simp [reachesRules, h]

theorem reachesRules_of_dns (h : (m.inboundType == "tun" && m.protocol == "dns") = true) :
    reachesRules m = false := by
  rw [reachesRules, h, Bool.not_true, Bool.and_false]

theorem reachesRules_of_not (hdetour : ¬(m.inboundDetour != "") = true)
    (hdns : ¬(m.inboundType == "tun" && m.protocol == "dns") = true) : reachesRules m = true := by
  simp only [bne_iff_ne, not_not] at hdetour
  simp [reachesRules, hdetour, hdns]

/-- The sniff actions that a call to the router carries out. -/
def sniffsOf (s : State X) : List (SniffAction X × State X) :=
  if reachesRules s.metadata then
    match r.prepare s.metadata with
    | .ok m => r.sniffs r.rules { s with metadata := m }
    | .error _ => []
  else []

theorem trace_of_matchRule {action : Option (Action X)} (hreach : reachesRules s.metadata = true)
    (h : r.matchRule false false s = .ok (action, s')) : r.Trace s (r.sniffsOf s) s' := by
  cases hprepare : r.prepare s.metadata with
  | error err =>
    rw [matchRule, hprepare] at h
    cases h
  | ok m =>
    rw [matchRule, hprepare] at h
    simp only [sniffsOf, hreach, if_true, hprepare]
    refine .skip ?_ (r.trace_of_matchRules h)
    rfl

theorem trace_of_not_reachesRules (hreach : reachesRules s.metadata = false) : r.Trace s (r.sniffsOf s) s := by
  simp only [sniffsOf, hreach, Bool.false_eq_true, if_false]
  exact .done rfl

theorem mem_throughTrackers {C : Type} {conn : C} {last h : Party × C}
    {trackers : List (InboundContext X → Bool)} {i : Nat}
    (hmem : h ∈ (throughTrackers m conn last trackers i).handed) : h = last ∨ ∃ j, h = (.tracker j, conn) := by
  induction trackers generalizing i with
  | nil => exact .inl (mem_singleton.1 hmem)
  | cons accepts trackers ih =>
    rw [throughTrackers] at hmem
    split at hmem
    · rcases mem_cons.1 hmem with rfl | hmem
      · exact .inr ⟨i, rfl⟩
      · exact ih hmem
    · exact .inr ⟨i, mem_singleton.1 hmem⟩

theorem mem_routeDetour {C : Type} {injectable : Bool × Bool → Bool} {network : String}
    {conn : C} {h : Party × C} (hmem : h ∈ (r.routeDetour injectable network m conn).handed) :
    h = (.detour m.inboundDetour, conn) := by
  rw [routeDetour] at hmem
  split at hmem
  · cases hmem
  · split at hmem
    · cases hmem
    · split at hmem
      · exact mem_singleton.1 hmem
      · cases hmem

variable {res : Except RouteError (Option (Action X) × State X)}

theorem mem_handConnection (hmem : h ∈ (r.handConnection res).handed) :
    ∃ action s, res = .ok (action, s) ∧ h.2 = (Cached.bare s.stream).wrap s.buffers := by
  rcases res with err | ⟨action, s⟩
  · cases hmem
  · refine ⟨action, s, rfl, ?_⟩
    rw [handConnection] at hmem
    split at hmem
    · cases hmem
    · exact congrArg snd (mem_singleton.1 hmem)
    · rcases mem_throughTrackers hmem with rfl | ⟨j, rfl⟩ <;> rfl

theorem mem_routeConnection (hmem : h ∈ (r.routeConnection m conn).handed) :
    ∃ s, r.Trace (streamState m conn) (r.sniffsOf (streamState m conn)) s ∧
      h.2 = (Cached.bare s.stream).wrap s.buffers := by
  have hearly : reachesRules m = false → h.2 = .bare (streamBytes conn) →
      ∃ s, r.Trace (streamState m conn) (r.sniffsOf (streamState m conn)) s ∧
        h.2 = (Cached.bare s.stream).wrap s.buffers :=
    fun hreach hbare => ⟨streamState m conn, r.trace_of_not_reachesRules hreach, hbare⟩
  rw [routeConnection] at hmem
  split at hmem
  · rename_i hdetour
    exact hearly (reachesRules_of_detour hdetour) (congrArg snd (r.mem_routeDetour hmem))
  · rename_i hdetour
    split at hmem
    · cases hmem
    · split at hmem
      · rename_i hdns
        exact hearly (reachesRules_of_dns hdns) (congrArg snd (mem_singleton.1 hmem))
      · rename_i hdns
        obtain ⟨action, s, hmatch, hconn⟩ := r.mem_handConnection hmem
        exact ⟨s, r.trace_of_matchRule (reachesRules_of_not hdetour hdns) hmatch, hconn⟩

/-- A packet connection as the party gets it, after rules that ended in `s`. -/
def HandedPackets (natConn : Bool) (s : State X) (h : Party × PacketHandover) : Prop :=
  (h.1 = .dnsHijacker ∧ h.2 = r.hijackDNSPacket natConn (.bare s.arriving) s.packetBuffers s.heap) ∨
    (h.1 ≠ .dnsHijacker ∧
      h.2.packets = (r.cachePackets (.bare s.arriving) s.packetBuffers s.heap).readAll.map some)

theorem mem_handPacketConnection
    {h : Party × PacketHandover} (hmem : h ∈ (r.handPacketConnection natConn res).handed) :
    ∃ action s, res = .ok (action, s) ∧ r.HandedPackets natConn s h := by
  rcases res with err | ⟨action, s⟩
  · cases hmem
  · refine ⟨action, s, rfl, ?_⟩
    rw [handPacketConnection] at hmem
    split at hmem
    · cases hmem
    · cases mem_singleton.1 hmem
      exact .inl ⟨rfl, rfl⟩
    · refine .inr ?_
      rcases mem_throughTrackers hmem with rfl | ⟨j, rfl⟩
      · refine ⟨nofun, ?_⟩
        split <;> rfl
      · exact ⟨nofun, rfl⟩

theorem mem_routePacketConnection {conn : List PacketEvent}
    {h : Party × PacketHandover} (hmem : h ∈ (r.routePacketConnection m natConn conn).handed) :
    ∃ s, r.Trace (packetState m conn) (r.sniffsOf (packetState m conn)) s ∧ r.HandedPackets natConn s h := by
  rw [routePacketConnection] at hmem
  split at hmem
  · rename_i hdetour
    refine ⟨packetState m conn, r.trace_of_not_reachesRules (reachesRules_of_detour hdetour), .inr ?_⟩
    rw [r.mem_routeDetour hmem]
    exact ⟨nofun, rfl⟩
  · rename_i hdetour
    split at hmem
    · rename_i hdns
      refine ⟨packetState m conn, r.trace_of_not_reachesRules (reachesRules_of_dns hdns), .inl ?_⟩
      rw [mem_singleton.1 hmem]
      exact ⟨rfl, rfl⟩
    · rename_i hdns
      obtain ⟨action, s, hmatch, hconn⟩ := r.mem_handPacketConnection hmem
      exact ⟨s, r.trace_of_matchRule (reachesRules_of_not hdetour hdns) hmatch, hconn⟩

/-! ## Fidelity -/

/-- The pieces of the client's stream that the sniff actions take, one after the
other. -/
def pieces (m : InboundContext X) (conn : List ReadEvent) : List (List UInt8) :=
  (r.sniffsOf (streamState m conn)).map fun p => r.took p.1 p.2

/-- The packets that the sniff actions take, in the order of arrival. -/
def packetsTaken (m : InboundContext X) (conn : List PacketEvent) : List Packet :=
  (r.sniffsOf (packetState m conn)).flatMap fun p => r.tookPackets p.1 p.2

/-- Some sniff action reads on although packets are buffered. -/
def packetsRepeated (m : InboundContext X) (conn : List PacketEvent) : Bool :=
  (r.sniffsOf (packetState m conn)).any fun p => r.repeats p.1 p.2

/-- A party reads the client's bytes in front to back order only if the pieces
taken by the sniff actions can be joined in either order. -/
theorem stream_kept_iff (hmem : h ∈ (r.routeConnection m conn).handed) :
    h.2.readAll = streamBytes conn ↔ (r.pieces m conn).reverse.flatten = (r.pieces m conn).flatten := by
  obtain ⟨s, htrace, hconn⟩ := r.mem_routeConnection hmem
  obtain ⟨hbytes, hbuffers⟩ := htrace.stream r rfl
  have hclient : streamBytes conn = (r.pieces m conn).flatten ++ s.stream := hbytes.symm
  have hread : h.2.readAll = (r.pieces m conn).reverse.flatten ++ s.stream := by
    have hpieces : s.buffers = (r.pieces m conn).filter (!·.isEmpty) := hbuffers
    rw [hconn, hpieces, Cached.readAll_wrap, ← filter_reverse, flatten_filter_not_isEmpty]
    rfl
  rw [hclient, hread]
  exact append_left_inj _

/-- The sniff action is not skipped on a stream. -/
def attempts (a : SniffAction X) (s : State X) : Bool :=
  !(skip s.metadata || s.metadata.protocol != "") &&
    !(a.streamSniffers.isEmpty && !a.packetSniffers.isEmpty || sniffedBefore a s.metadata)

theorem took_of_not_attempts (hs : s.inputConn.isSome = true) (h : attempts a s = false) : r.took a s = [] := by
  obtain ⟨conn, hconn⟩ := isSome_iff_exists.1 hs
  have hstays : (r.actionSniff a s).2.2.1 = s := by
    rw [actionSniff]
    split
    · rfl
    · rename_i hskip
      have hbefore : (a.streamSniffers.isEmpty && !a.packetSniffers.isEmpty || sniffedBefore a s.metadata) = true := by
        simp only [attempts, hskip, Bool.not_false, Bool.true_and, Bool.not_eq_false'] at h
        exact h
      simp [hconn, sniffStream, hbefore]
  rw [took, hstays, consumed_self]

/-- No sniff action that is not skipped finds bytes buffered. -/
def Fresh (l : List (SniffAction X × State X)) : Prop := ∀ p ∈ l, attempts p.1 p.2 = true → p.2.buffers = []

theorem Trace.one_buffer (h : r.Trace s l s')
    (hs : s.inputConn.isSome = true) (hfresh : Fresh l) (hone : s.buffers.length ≤ 1) : s'.buffers.length ≤ 1 := by
  induction h with
  | done hview =>
    simp only [view, Prod.mk.injEq] at hview
    rw [hview.2.2.1]
    exact hone
  | skip hview _ ih =>
    simp only [view, Prod.mk.injEq] at hview
    obtain ⟨hconn, -, hbuffers, -⟩ := hview
    exact ih (hconn ▸ hs) hfresh (hbuffers ▸ hone)
  | @sniff s s₁ s' a l hstep _ ih =>
    obtain ⟨hconn, -, hbuffers⟩ := r.takeSniff_stream hs hstep
    refine ih hconn (fun p hp => hfresh p (mem_cons_of_mem _ hp)) ?_
    rw [hbuffers, length_append]
    cases hattempts : attempts a s with
    | true =>
      have hempty : s.buffers = [] := hfresh (a, s) mem_cons_self hattempts
      rw [hempty, length_nil, Nat.zero_add]
      exact length_filter_le _ _
    | false =>
      rw [r.took_of_not_attempts hs hattempts]
      exact hone

/-- If no sniff action that is not skipped finds bytes buffered, every party
reads the client's bytes in their order. -/
theorem stream_kept_of_fresh
    (hmem : h ∈ (r.routeConnection m conn).handed) (hfresh : Fresh (r.sniffsOf (streamState m conn))) :
    h.2.readAll = streamBytes conn := by
  obtain ⟨s, htrace, hconn⟩ := r.mem_routeConnection hmem
  obtain ⟨hbytes, hbuffers⟩ := htrace.stream r rfl
  have hclient : s.buffers.flatten ++ s.stream = streamBytes conn := by
    rw [hbuffers, flatten_append, flatten_filter_not_isEmpty]
    exact hbytes
  have hone : s.buffers.length ≤ 1 := htrace.one_buffer r rfl hfresh (Nat.zero_le 1)
  have hreverse : s.buffers.reverse = s.buffers := by
    match s.buffers, hone with
    | [], _ => rfl
    | [buffer], _ => rfl
  rw [hconn, Cached.readAll_wrap, hreverse]
  exact hclient

/-- What a party reads of a packet connection depends on the packets taken and on
whether some are listed twice. -/
theorem packets_kept_iff {conn : List PacketEvent}
    {h : Party × PacketHandover} (hmem : h ∈ (r.routePacketConnection m natConn conn).handed) :
    h.2.packets = (packetsOf conn).map some ↔ if h.1 = .dnsHijacker then
        (natConn = true ∨ (r.packetsTaken m conn).reverse = r.packetsTaken m conn) ∧ r.packetsRepeated m conn = false
      else (r.packetsTaken m conn).reverse = r.packetsTaken m conn ∧
          (r.putClears = true ∨ r.packetsRepeated m conn = false) := by
  obtain ⟨s, htrace, hhanded⟩ := r.mem_routePacketConnection hmem
  obtain ⟨hheap, hpackets, hb⟩ := htrace.packets r rfl rfl Buffered.empty
  have htaken : s.heap = r.packetsTaken m conn := hheap
  have hclient : packetsOf conn = s.heap ++ s.arriving := by
    rw [htaken]
    exact hpackets.symm
  rw [← htaken, hclient]
  rcases hhanded with ⟨hparty, hconn⟩ | ⟨hparty, hconn⟩
  · rw [if_pos hparty, hconn]
    exact r.hijackDNSPacket_iff hb natConn s.arriving
  · rw [if_neg hparty, hconn, (map_injective_iff.2 (some_injective _)).eq_iff]
    exact r.cachePackets_iff hb s.arriving

/-- Every party reads the client's bytes in their order if and only if the
pieces taken by sniff actions give the same bytes when they are joined from last
to first, as they do when no action that is not skipped finds bytes buffered. An
outbound or tracker reads the packets received, each once and in order, if and
only if the packets taken are the same from last to first and no sniff action
reads on with packets buffered, unless buffers that are given back are cleared;
for the DNS hijacker no action may read on, and the order matters only where it
reads the packets itself. -/
theorem routed_as_received_iff (m : InboundContext X) :
    (∀ (conn : List ReadEvent), ∀ h ∈ (r.routeConnection m conn).handed,
      (h.2.readAll = streamBytes conn ↔ (r.pieces m conn).reverse.flatten = (r.pieces m conn).flatten) ∧
        (Fresh (r.sniffsOf (streamState m conn)) → h.2.readAll = streamBytes conn)) ∧
    ∀ (natConn : Bool) (conn : List PacketEvent), ∀ h ∈ (r.routePacketConnection m natConn conn).handed,
      (h.2.packets = (packetsOf conn).map some ↔
        if h.1 = .dnsHijacker then
          (natConn = true ∨ (r.packetsTaken m conn).reverse = r.packetsTaken m conn) ∧
            r.packetsRepeated m conn = false
        else
          (r.packetsTaken m conn).reverse = r.packetsTaken m conn ∧
            (r.putClears = true ∨ r.packetsRepeated m conn = false)) := by
  refine ⟨fun conn h hmem => ⟨r.stream_kept_iff hmem, fun hfresh => ?_⟩, fun natConn conn h hmem => ?_⟩
  · exact r.stream_kept_of_fresh hmem hfresh
  · exact r.packets_kept_iff hmem

/-! ## Samples -/

def sampleRouter (rules : List (Rule Unit)) : Router Unit where
  rules
  outbound _ := none
  defaultOutbound := { tag := "direct", networks := [.tcp, .udp] }
  streamSniffers := []
  packetSniffers := []
  quicClientHello m _ := ([.needMoreData], m)
  bufferSize := 16384
  putClears := true

def sampleSniff (name : String) (fault : Fault) : Rule Unit where
  isMatch _ := true
  action := .sniff {
    snifferNames := [name]
    streamSniffers := [fun m _ => ([fault], m)]
    packetSniffers := [fun m _ => ([fault], m)] }

def sampleHijack : Rule Unit where
  isMatch _ := true
  action := .hijackDNS

def sampleClient : InboundContext Unit := { destination := { addr := "192.0.2.1", port := 443 }, rest := () }

theorem routed_as_received_iff_sample :
    (∃ c, (.outbound "direct", c) ∈ ((sampleRouter [sampleSniff "ssh" (.other "invalid argument")]).routeConnection
        sampleClient [.read [1], .read [2]]).handed ∧ c.readAll = [1, 2]) ∧
    (∃ c, (.outbound "direct", c) ∈ ((sampleRouter [sampleSniff "stun" (.other "invalid argument")]).routePacketConnection
        sampleClient true [.packet ⟨[1], {}⟩, .packet ⟨[2], {}⟩]).handed ∧
      c.packets = [some ⟨[1], {}⟩, some ⟨[2], {}⟩]) := by
  refine ⟨⟨.cached [1] (.bare [2]), .head _, ?_⟩, ⟨.conn (.cached [⟨[1], {}⟩] (.bare [⟨[2], {}⟩])), .head _, ?_⟩⟩
  · have hstream := (routed_as_received_iff (sampleRouter [sampleSniff "ssh" (.other "invalid argument")])
      sampleClient).1 [.read [1], .read [2]] (.outbound "direct", .cached [1] (.bare [2])) (.head _)
    exact hstream.1.2 rfl
  · have hpackets := (routed_as_received_iff (sampleRouter [sampleSniff "stun" (.other "invalid argument")])
      sampleClient).2 true [.packet ⟨[1], {}⟩, .packet ⟨[2], {}⟩]
      (.outbound "direct", .conn (.cached [⟨[1], {}⟩] (.bare [⟨[2], {}⟩]))) (.head _)
    exact hpackets.2 ⟨rfl, .inl rfl⟩

/-- Two sniff rules read a segment each and the outbound reads them the other way
round. One sniff rule that waits for a second packet does the same to packets.
A second sniff rule that finds a buffered packet incomplete lists it again for
the DNS hijacker, which then gets an empty buffer. -/
theorem routing_reverses_pieces :
    ((sampleRouter [sampleSniff "bittorrent" (.other "invalid argument"),
        sampleSniff "ssh" (.other "invalid argument")]).routeConnection sampleClient
          [.read [1], .read [2], .read [3]]).handed.map (fun h => (h.1, h.2.readAll))
      = [(.outbound "direct", [2, 1, 3])] ∧
    ((sampleRouter [sampleSniff "quic" .needMoreData]).routePacketConnection sampleClient true
        [.packet ⟨[1], {}⟩, .packet ⟨[2], {}⟩, .timeout, .packet ⟨[3], {}⟩]).handed.map (fun h => (h.1, h.2.packets))
      = [(.outbound "direct", [some ⟨[2], {}⟩, some ⟨[1], {}⟩, some ⟨[3], {}⟩])] ∧
    ((sampleRouter [sampleSniff "quic" .needMoreData, sampleSniff "quic" .needMoreData,
        sampleHijack]).routePacketConnection sampleClient true
          [.packet ⟨[1], {}⟩, .timeout, .timeout, .packet ⟨[2], {}⟩]).handed.map (fun h => (h.1, h.2.packets))
      = [(.dnsHijacker, [some ⟨[1], {}⟩, none, some ⟨[2], {}⟩])] := ⟨rfl, rfl, rfl⟩

end Singlink.Route.Router
