import Singlink.Service.Resolved
/-!
# The link of a domain

Which link `Transport.Exchange` selects for a name, whatever the order of the map of
links, and which names `PreferredDomain` takes, against what a domain of a link is
for: the names below it, those of a longer domain apart.

The code compares texts. The domain `ample.com.` takes the name `example.com.`, a
domain without the dot at its end takes no question, and the link that the loop
comes to last is the one that is selected. `hasSuffix_iff` says what the text of a
suffix is among names, and `linkDomains_sound_iff` for which domains this does not
matter.
-/

namespace Singlink.Resolved

open Lib List GoMap

/-! ## Domains -/

/-- The dot of the root is at the end of the name. -/
def rooted (name : String) : Bool := name.toList.getLast? = some '.'

/-- A name without the dot of the root at its end. -/
def withoutRoot (name : String) : List Char :=
  if name.toList.getLast? = some '.' then name.toList.dropLast else name.toList

/-- The domain is the name or a suffix of it on a label boundary; all names are below
the root. -/
def OnBoundary (name domain : String) : Prop :=
  withoutRoot domain = [] ∨ withoutRoot domain = withoutRoot name ∨ '.' :: withoutRoot domain <:+ withoutRoot name

instance (name domain : String) : Decidable (OnBoundary name domain) :=
  inferInstanceAs (Decidable (_ ∨ _ ∨ _))

/-- The name ends with the domain, but a label of the name goes on to its left. -/
def InsideLabel (name domain : String) : Prop :=
  withoutRoot domain ≠ [] ∧ ∃ c, c ≠ '.' ∧ c :: withoutRoot domain <:+ withoutRoot name

/-- Both have the dot of the root at the end or both have none, or the domain has no
text at all. -/
def WrittenAs (name domain : String) : Prop := domain = "" ∨ rooted domain = rooted name

section Text

variable {name domain : String}

theorem toList_eq_withoutRoot (name : String) :
    name.toList = withoutRoot name ++ if rooted name then ['.'] else [] := by
  unfold withoutRoot rooted
  by_cases hroot : name.toList.getLast? = some '.'
  · simp [hroot, dropLast_append_getLast? '.' hroot]
  · simp [hroot]

theorem withoutRoot_empty : withoutRoot "" = [] := rfl

theorem suffix_iff_eq_or_cons {α : Type*} {l l' : List α} : l <:+ l' ↔ l = l' ∨ ∃ c, c :: l <:+ l' := by
  constructor
  · rintro ⟨front, rfl⟩
    rcases front.eq_nil_or_concat with rfl | ⟨front, c, rfl⟩
    · exact .inl rfl
    · exact .inr ⟨c, front, by simp⟩
  · rintro (rfl | ⟨c, hcons⟩)
    · exact suffix_rfl
    · exact (suffix_cons c l).trans hcons

/-- A suffix of the name is the root, starts at a label, or inside of one. -/
theorem withoutRoot_suffix_iff : withoutRoot domain <:+ withoutRoot name ↔
    OnBoundary name domain ∨ InsideLabel name domain := by
  constructor
  · intro hsuffix
    by_cases hroot : withoutRoot domain = []
    · exact .inl (.inl hroot)
    · rcases suffix_iff_eq_or_cons.1 hsuffix with heq | ⟨c, hcons⟩
      · exact .inl (.inr (.inl heq))
      · by_cases hdot : c = '.'
        · exact .inl (.inr (.inr (hdot ▸ hcons)))
        · exact .inr ⟨hroot, c, hdot, hcons⟩
  · rintro ((hroot | heq | hdot) | ⟨-, c, -, hcons⟩)
    · exact hroot ▸ nil_suffix
    · exact heq ▸ suffix_rfl
    · exact suffix_iff_eq_or_cons.2 (.inr ⟨'.', hdot⟩)
    · exact suffix_iff_eq_or_cons.2 (.inr ⟨c, hcons⟩)

/-- Before the domain there is one character only. -/
theorem not_onBoundary_of_insideLabel (h : InsideLabel name domain) : ¬ OnBoundary name domain := by
  obtain ⟨hroot, c, hdot, hcons⟩ := h
  rintro (hnil | heq | hboundary)
  · exact hroot hnil
  · have hlength := hcons.length_le
    rw [heq, length_cons] at hlength
    omega
  · have hsame := (suffix_of_suffix_length_le hcons hboundary (by simp)).eq_of_length (by simp)
    exact hdot (cons.inj hsame).1

theorem rooted_of_suffix (hne : domain ≠ "") (h : domain.toList <:+ name.toList) : rooted domain = rooted name := by
  obtain ⟨front, heq⟩ := h
  have htext : domain.toList ≠ [] := fun hnil => hne (String.toList_eq_nil_iff.1 hnil)
  simp only [rooted, ← heq, getLast?_append_of_ne_nil _ htext]

/-- The text of the name ends with that of the domain if they are written alike and
the name ends with the domain, on a label boundary or inside of a label. -/
theorem hasSuffix_iff : GoStrings.hasSuffix name domain = true ↔
    WrittenAs name domain ∧ (OnBoundary name domain ∨ InsideLabel name domain) := by
  rw [GoStrings.hasSuffix, decide_eq_true_eq, WrittenAs]
  by_cases hempty : domain = ""
  · subst hempty
    exact iff_of_true nil_suffix ⟨.inl rfl, .inl (.inl withoutRoot_empty)⟩
  · rw [← withoutRoot_suffix_iff, or_iff_right hempty]
    constructor
    · intro hsuffix
      have hrooted := rooted_of_suffix hempty hsuffix
      rw [toList_eq_withoutRoot, toList_eq_withoutRoot name, hrooted] at hsuffix
      exact ⟨hrooted, (suffix_append_inj_of_length_eq rfl).1 hsuffix |>.1⟩
    · rintro ⟨hrooted, hsuffix⟩
      rw [toList_eq_withoutRoot, toList_eq_withoutRoot name, hrooted]
      exact (suffix_append_inj_of_length_eq rfl).2 ⟨hsuffix, rfl⟩

end Text

namespace Service

/-- `PreferredDomain`, with the order in which it goes through the links. -/
def preferredDomain (s : Service) (order : List Int32) (name : String) : Bool :=
  (s.links.range order).any fun entry =>
    (s.heap entry.2).domain.any fun domain => domain.domain ≠ "." && GoStrings.hasSuffix name domain.domain

/-- A domain of a link that is there. -/
structure Has (s : Service) (link : Nat) (domain : LinkDomain) : Prop where
  registered : ∃ ifIndex, s.links.lookup ifIndex = some link
  mem : domain ∈ (s.heap link).domain

/-- No domain of a link that the name is below is longer than one of this link. -/
def OwnsLongest (s : Service) (name : String) (link : Nat) : Prop :=
  ∃ domain, s.Has link domain ∧ OnBoundary name domain.domain ∧
    ∀ link' domain', s.Has link' domain' → OnBoundary name domain'.domain →
      (withoutRoot domain'.domain).length ≤ (withoutRoot domain.domain).length

def Matches (s : Service) (name : String) : Prop := ∃ link domain, s.Has link domain ∧ OnBoundary name domain.domain

/-- The link that `Exchange` selects by its domains, if any. -/
def byDomain (s : Service) (acceptDefaultResolvers : Bool) (order : List Int32) (name : String) : Option Nat :=
  (s.links.range order).foldl (fun selected entry =>
    if (s.heap entry.2).domain.any (matchesDomain acceptDefaultResolvers name) then some entry.2 else selected) none

def fallback (s : Service) (acceptDefaultResolvers : Bool) : Option (Option Nat) :=
  if acceptDefaultResolvers then s.defaultLink s.defaultRouteSequence.reverse none else some none

/-- Whatever the order of the links, `Exchange` selects a link with the longest domain that
the name is below, the same one in all orders, and falls back only if the name is below
none; and `PreferredDomain` takes the names below a domain. -/
structure Sound (s : Service) (acceptDefaultResolvers : Bool) (name : String) : Prop where
  selects : s.Matches name → ∀ order, ∃ link,
    s.byDomain acceptDefaultResolvers order name = some link ∧ s.OwnsLongest name link
  fallsBack : ¬ s.Matches name → ∀ order, s.byDomain acceptDefaultResolvers order name = none
  same : ∀ order order', s.selectLink acceptDefaultResolvers order name = s.selectLink acceptDefaultResolvers order' name
  prefers : ∀ order, s.preferredDomain order name = true ↔ s.Matches name

/-! ## The domains that are taken -/

/-- The name ends with the domain, which is written as the name is. -/
def EndsName (name : String) (domain : LinkDomain) : Prop :=
  WrittenAs name domain.domain ∧ (OnBoundary name domain.domain ∨ InsideLabel name domain.domain)

/-- The root as a domain for routing only, which `Exchange` leaves to those that accept
default resolvers. -/
def Skipped (acceptDefaultResolvers : Bool) (domain : LinkDomain) : Prop :=
  domain.domain = "." ∧ domain.routingOnly = true ∧ acceptDefaultResolvers = false

/-- The name is below no domain, and none that is written as it is ends inside of a label
of it. -/
def Foreign (s : Service) (name : String) : Prop :=
  ∀ link domain, s.Has link domain → ¬ OnBoundary name domain.domain ∧
    ¬ (WrittenAs name domain.domain ∧ InsideLabel name domain.domain)

/-- The link has the longest domain that the name is below, and a domain besides the root
that ends the name and is written as it is; no other link has one that does both, a root
that is skipped apart. -/
structure Alone (s : Service) (acceptDefaultResolvers : Bool) (name : String) (link : Nat) : Prop where
  longest : s.OwnsLongest name link
  ends : ∃ domain, s.Has link domain ∧ domain.domain ≠ "." ∧ EndsName name domain
  others : ∀ link' domain, s.Has link' domain → EndsName name domain → ¬ Skipped acceptDefaultResolvers domain →
    link' = link

variable {s : Service} {acceptDefaultResolvers : Bool} {name : String} {link : Nat} {domain : LinkDomain}

theorem matchesDomain_iff : matchesDomain acceptDefaultResolvers name domain = true ↔
    EndsName name domain ∧ ¬ Skipped acceptDefaultResolvers domain := by
  rw [matchesDomain, Bool.and_eq_true, hasSuffix_iff, and_comm, EndsName, Skipped]
  refine and_congr_right' ?_
  by_cases hroot : domain.domain = "."
  · cases domain.routingOnly <;> cases acceptDefaultResolvers <;> simp [hroot]
  · simp [hroot]

theorem not_skipped (h : domain.domain ≠ ".") : ¬ Skipped acceptDefaultResolvers domain :=
  fun hskipped => h hskipped.1

/-- A link with a domain that the loop of `Exchange` stops at. -/
def Takes (s : Service) (acceptDefaultResolvers : Bool) (name : String) (link : Nat) : Prop :=
  ∃ domain, s.Has link domain ∧ EndsName name domain ∧ ¬ Skipped acceptDefaultResolvers domain

/-- A domain that ends the loop of `PreferredDomain`. -/
def Prefers (s : Service) (name : String) : Prop :=
  ∃ link domain, s.Has link domain ∧ domain.domain ≠ "." ∧ EndsName name domain

theorem takes_iff : s.Takes acceptDefaultResolvers name link ↔ (∃ ifIndex, s.links.lookup ifIndex = some link) ∧
      (s.heap link).domain.any (matchesDomain acceptDefaultResolvers name) = true := by
  simp only [any_eq_true, matchesDomain_iff]
  constructor
  · rintro ⟨domain, ⟨hlink, hmem⟩, hmatch⟩
    exact ⟨hlink, domain, hmem, hmatch⟩
  · rintro ⟨hlink, domain, hmem, hmatch⟩
    exact ⟨domain, ⟨hlink, hmem⟩, hmatch⟩

/-! ## The loops -/

variable (order : List Int32)

theorem byDomain_eq : s.byDomain acceptDefaultResolvers order name =
    ((s.links.range order).reverse.find? fun entry =>
      (s.heap entry.2).domain.any (matchesDomain acceptDefaultResolvers name)).map Prod.snd :=
  foldl_overwrite (fun entry : Int32 × Nat =>
    (s.heap entry.2).domain.any (matchesDomain acceptDefaultResolvers name)) Prod.snd _

theorem selectLink_eq : s.selectLink acceptDefaultResolvers order name =
    match s.byDomain acceptDefaultResolvers order name with
    | some link => some (some link)
    | none => s.fallback acceptDefaultResolvers := by
  change (if s.byDomain acceptDefaultResolvers order name = none ∧ acceptDefaultResolvers
    then s.defaultLink s.defaultRouteSequence.reverse none
    else some (s.byDomain acceptDefaultResolvers order name)) = _
  cases s.byDomain acceptDefaultResolvers order name with
  | some link => simp
  | none => simp [fallback]

theorem byDomain_eq_none {order : List Int32} : s.byDomain acceptDefaultResolvers order name = none ↔
    ∀ link, ¬ s.Takes acceptDefaultResolvers name link := by
  simp only [byDomain_eq, Option.map_eq_none_iff, find?_eq_none, mem_reverse, takes_iff, Prod.forall,
    GoMap.mem_range, not_and, forall_exists_index]
  exact forall_comm

theorem takes_of_byDomain {order : List Int32}
    (h : s.byDomain acceptDefaultResolvers order name = some link) : s.Takes acceptDefaultResolvers name link := by
  rw [byDomain_eq] at h
  obtain ⟨⟨ifIndex, link'⟩, hfind, rfl⟩ := Option.map_eq_some_iff.1 h
  have hmem := mem_of_find?_eq_some hfind
  have hany := find?_some hfind
  exact takes_iff.2 ⟨⟨ifIndex, mem_range.1 (mem_reverse.1 hmem)⟩, hany⟩

/-- In some order, the loop comes to a given link last. -/
theorem exists_byDomain (h : s.Takes acceptDefaultResolvers name link) :
    ∃ order, s.byDomain acceptDefaultResolvers order name = some link := by
  obtain ⟨⟨ifIndex, hlookup⟩, hany⟩ := takes_iff.1 h
  obtain ⟨order, entries, hrange⟩ := exists_range_concat hlookup
  refine ⟨order, ?_⟩
  simp [byDomain_eq, hrange, hany]

theorem preferredDomain_iff : s.preferredDomain order name = true ↔ s.Prefers name := by
  simp only [preferredDomain, any_eq_true, Bool.and_eq_true, decide_eq_true_eq, hasSuffix_iff, Prod.exists,
    GoMap.mem_range]
  constructor
  · rintro ⟨ifIndex, link, hlookup, domain, hmem, hne, hends⟩
    exact ⟨link, domain, ⟨⟨ifIndex, hlookup⟩, hmem⟩, hne, hends⟩
  · rintro ⟨link, domain, ⟨⟨ifIndex, hlookup⟩, hmem⟩, hne, hends⟩
    exact ⟨ifIndex, link, hlookup, domain, hmem, hne, hends⟩

/-! ## Selection -/

theorem OwnsLongest.matches (h : s.OwnsLongest name link) : s.Matches name := by
  obtain ⟨domain, hhas, hboundary, -⟩ := h
  exact ⟨link, domain, hhas, hboundary⟩

/-- Any link that the loop stops at is the last one in some order. -/
theorem Sound.owns (h : s.Sound acceptDefaultResolvers name) (htakes : s.Takes acceptDefaultResolvers name link) :
    s.OwnsLongest name link := by
  obtain ⟨order, hfound⟩ := exists_byDomain htakes
  by_cases hmatches : s.Matches name
  · obtain ⟨link', hfound', howns⟩ := h.selects hmatches order
    rw [hfound] at hfound'
    rwa [Option.some.inj hfound']
  · rw [h.fallsBack hmatches order] at hfound
    cases hfound

theorem Sound.unique {link' : Nat} (h : s.Sound acceptDefaultResolvers name)
    (htakes : s.Takes acceptDefaultResolvers name link) (htakes' : s.Takes acceptDefaultResolvers name link') :
    link' = link := by
  obtain ⟨order, hfound⟩ := exists_byDomain htakes
  obtain ⟨order', hfound'⟩ := exists_byDomain htakes'
  have hselect := h.same order' order
  rw [selectLink_eq, selectLink_eq, hfound, hfound'] at hselect
  exact Option.some.inj (Option.some.inj hselect)

theorem Sound.alone (h : s.Sound acceptDefaultResolvers name) (hmatches : s.Matches name) :
    ∃ link, s.Alone acceptDefaultResolvers name link := by
  obtain ⟨link, domain, hhas, hne, hends⟩ := (preferredDomain_iff []).1 ((h.prefers []).2 hmatches)
  have htakes : s.Takes acceptDefaultResolvers name link := ⟨domain, hhas, hends, not_skipped hne⟩
  exact ⟨link, h.owns htakes, ⟨domain, hhas, hne, hends⟩,
    fun link' domain' hhas' hends' hskipped => h.unique htakes ⟨domain', hhas', hends', hskipped⟩⟩

theorem Sound.foreign (h : s.Sound acceptDefaultResolvers name) (hmatches : ¬ s.Matches name) : s.Foreign name := by
  refine fun link domain hhas => ⟨fun hboundary => hmatches ⟨link, domain, hhas, hboundary⟩, ?_⟩
  rintro ⟨hwritten, hinside⟩
  -- the root is inside of no label
  have hne : domain.domain ≠ "." := fun hroot => hinside.1 (by rw [hroot]; rfl)
  exact hmatches (h.owns ⟨domain, hhas, ⟨hwritten, .inr hinside⟩, not_skipped hne⟩).matches

theorem Foreign.not_endsName (h : s.Foreign name) (hhas : s.Has link domain) : ¬ EndsName name domain := by
  rintro ⟨hwritten, hboundary | hinside⟩
  · exact (h link domain hhas).1 hboundary
  · exact (h link domain hhas).2 ⟨hwritten, hinside⟩

theorem Foreign.sound (h : s.Foreign name) : s.Sound acceptDefaultResolvers name := by
  have hmatches : ¬ s.Matches name := fun ⟨link, domain, hhas, hboundary⟩ => (h link domain hhas).1 hboundary
  have hnone : ∀ order, s.byDomain acceptDefaultResolvers order name = none :=
    fun order => byDomain_eq_none.2 fun link ⟨domain, hhas, hends, _⟩ => h.not_endsName hhas hends
  refine ⟨fun hmatch => absurd hmatch hmatches, fun _ => hnone, fun order order' => ?_, fun order => ?_⟩
  · rw [selectLink_eq, selectLink_eq, hnone, hnone]
  · rw [preferredDomain_iff]
    exact iff_of_false (fun ⟨link, domain, hhas, _, hends⟩ => h.not_endsName hhas hends) hmatches

theorem Alone.byDomain (h : s.Alone acceptDefaultResolvers name link) :
    s.byDomain acceptDefaultResolvers order name = some link := by
  cases hfound : s.byDomain acceptDefaultResolvers order name with
  | none =>
    obtain ⟨domain, hhas, hne, hends⟩ := h.ends
    exact absurd ⟨domain, hhas, hends, not_skipped hne⟩ (byDomain_eq_none.1 hfound link)
  | some link' =>
    obtain ⟨domain, hhas, hends, hskipped⟩ := takes_of_byDomain hfound
    rw [h.others link' domain hhas hends hskipped]

theorem Alone.sound (h : s.Alone acceptDefaultResolvers name link) : s.Sound acceptDefaultResolvers name := by
  have hmatches : s.Matches name := h.longest.matches
  refine ⟨fun _ order => ⟨link, h.byDomain order, h.longest⟩, fun hnot => absurd hmatches hnot,
    fun order order' => ?_, fun order => ?_⟩
  · rw [selectLink_eq, selectLink_eq, h.byDomain, h.byDomain]
  · rw [preferredDomain_iff]
    exact iff_of_true ⟨link, h.ends⟩ hmatches

/-- `Exchange` and `PreferredDomain` go by the names below the domains if and only if the
name has nothing to do with the domains, or one link alone: it has the longest domain the
name is below and one, besides the root, that ends the name and has the dot at its
end as the name has; and what ends the name among the domains of other links is written
otherwise, or is a root that is skipped. -/
theorem linkDomains_sound_iff (s : Service) (acceptDefaultResolvers : Bool) (name : String) :
    (∀ order, s.selectLink acceptDefaultResolvers order name =
      match s.byDomain acceptDefaultResolvers order name with
      | some link => some (some link)
      | none => s.fallback acceptDefaultResolvers) ∧
    (s.Sound acceptDefaultResolvers name ↔
      s.Foreign name ∨ ∃ link, s.Alone acceptDefaultResolvers name link) := by
  refine ⟨selectLink_eq, fun hsound => ?_, ?_⟩
  · by_cases hmatches : s.Matches name
    · exact .inr (hsound.alone hmatches)
    · exact .inl (hsound.foreign hmatches)
  · rintro (hforeign | ⟨link, halone⟩)
    · exact hforeign.sound
    · exact halone.sound

def pairFinder : Finder := fun ifIndex =>
  if ifIndex = 2 then some ⟨7, "eth0"⟩ else if ifIndex = 3 then some ⟨8, "wg0"⟩ else none

/-- A domain and one below it, each of a link of its own. -/
def pairOps : List Op :=
  [.set pairFinder 2 (.domains [⟨"com.", false⟩]), .set pairFinder 3 (.domains [⟨"example.com.", false⟩])]

/-- The link of `com.` is selected for `www.example.com.` if it is the last one, and
`telecom.` is preferred. -/
theorem linkDomains_ambiguous :
    Reach system (fun s op => s.Careful op) (run pairOps) ∧
      (run pairOps).selectLink false [3, 2] "www.example.com." = some (some 0) ∧
      (run pairOps).selectLink false [2, 3] "www.example.com." = some (some 1) ∧
      ¬ (run pairOps).OwnsLongest "www.example.com." 0 ∧ ¬ (run pairOps).Sound false "www.example.com." ∧
      (run pairOps).preferredDomain [] "telecom." = true ∧ ¬ (run pairOps).Matches "telecom." ∧
      ¬ (run pairOps).Sound false "telecom." := by
  have hdomains : ∀ link domain, (run pairOps).Has link domain →
      link = 0 ∧ domain = ⟨"com.", false⟩ ∨ link = 1 ∧ domain = ⟨"example.com.", false⟩ := by
    rintro link domain ⟨⟨ifIndex, hlookup⟩, hmem⟩
    have hentries : (run pairOps).links.range [] = [(3, 1), (2, 0)] := rfl
    have hmem' : (ifIndex, link) ∈ (run pairOps).links.range [] := mem_range.2 hlookup
    rw [hentries] at hmem'
    rcases mem_pair.1 hmem' with hentry | hentry
    · cases hentry
      exact .inr ⟨rfl, mem_singleton.1 hmem⟩
    · cases hentry
      exact .inl ⟨rfl, mem_singleton.1 hmem⟩
  have hshorter : ¬ (run pairOps).OwnsLongest "www.example.com." 0 := by
    rintro ⟨domain, hhas, -, hlongest⟩
    rcases hdomains 0 domain hhas with ⟨-, rfl⟩ | ⟨hlink, -⟩
    · have hlonger : (run pairOps).Has 1 ⟨"example.com.", false⟩ := ⟨⟨3, rfl⟩, mem_singleton.2 rfl⟩
      exact absurd (hlongest 1 _ hlonger (by decide)) (by decide)
    · cases hlink
  have hbelow : ¬ (run pairOps).Matches "telecom." := by
    rintro ⟨link, domain, hhas, hboundary⟩
    rcases hdomains link domain hhas with ⟨-, rfl⟩ | ⟨-, rfl⟩
    · exact not_onBoundary_of_insideLabel ⟨by decide, 'e', by decide, by decide⟩ hboundary
    · exact absurd hboundary (by decide)
  refine ⟨reach_run ⟨⟨fun _ => ⟨_, rfl, rfl⟩, rfl⟩, ⟨fun _ => ⟨_, rfl, rfl⟩, rfl⟩, trivial⟩, rfl, rfl, hshorter,
    fun hsound => ?_, rfl, hbelow, fun hsound => hbelow ((hsound.prefers []).1 rfl)⟩
  cases hsound.same [3, 2] [2, 3]

end Service

end Singlink.Resolved
