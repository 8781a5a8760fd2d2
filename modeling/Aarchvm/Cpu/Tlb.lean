import Aarchvm.Word
import Mathlib.Logic.Function.Basic

/-!
# Translation lookaside buffer

A set-associative buffer of leaf translations and, in front of it, one hot entry
for fetches and one for data. An entry is tagged with VA[55:12] and an ASID; a
slot is `none` when its `valid` flag is false.
-/
namespace Aarchvm

def kTlbWays : Nat := 4
def kTlbSets : Nat := 1024

inductive MemoryType where
  | device | normal | unknown
  deriving DecidableEq, Repr

structure WalkAttributes where
  inner : BitVec 2
  outer : BitVec 2
  shareability : BitVec 2
  ipsBits : Nat
  deriving DecidableEq, Repr

/-- What a leaf descriptor and the tables above it say, the output address apart. -/
structure LeafAttrs where
  level : Nat
  attrIndex : Nat
  mairAttr : U8
  globalEntry : Bool
  writable : Bool
  userAccessible : Bool
  executable : Bool
  pxn : Bool
  uxn : Bool
  memoryType : MemoryType
  leafShareability : BitVec 2
  walkAttrs : WalkAttributes
  deriving DecidableEq, Repr

structure TranslationResult where
  pa : U64
  asid : U16
  attrs : LeafAttrs
  deriving DecidableEq, Repr

structure TlbEntry where
  vaPage : U64
  paPage : U64
  asid : U16
  attrs : LeafAttrs
  deriving DecidableEq, Repr

def tlbPageMask : U64 := lowMask 44

def tlbSetIndex (vaPage : U64) : Nat := vaPage.toNat % kTlbSets

/-- `tlb_level_page_span`. -/
def tlbLevelPageSpan (level : Nat) : U64 := if 3 ≤ level then 1 else (1 : U64) <<< (9 * (3 - level))

def tlbLevelPageBase (vaPage : U64) (level : Nat) : U64 :=
  vaPage &&& ~~~(tlbLevelPageSpan level - 1)

namespace TlbEntry

/-- `tlb_entry_matches_asid`. -/
def matchesAsid (e : TlbEntry) (asid : U16) : Bool := e.attrs.globalEntry || e.asid == asid

/-- `tlb_entry_covers_va_page`. -/
def coversVaPage (e : TlbEntry) (vaPage : U64) : Bool :=
  tlbLevelPageBase e.vaPage e.attrs.level == tlbLevelPageBase vaPage e.attrs.level

/-- The test of a hot entry. -/
def hits (e : TlbEntry) (vaPage : U64) (asid : U16) : Bool :=
  e.vaPage == vaPage && e.matchesAsid asid

/-- A slot that `tlb_insert_entry` overwrites with `e`. -/
def sameSlot (e slot : TlbEntry) : Bool :=
  slot.vaPage == e.vaPage && slot.attrs.globalEntry == e.attrs.globalEntry &&
    (slot.attrs.globalEntry || slot.asid == e.asid)

end TlbEntry

structure Tlb where
  entries : Nat → Nat → Option TlbEntry
  nextReplace : Nat → Nat
  lastFetch : Option TlbEntry
  lastData : Option TlbEntry

namespace Tlb

def empty : Tlb := ⟨fun _ _ => none, fun _ => 0, none, none⟩

/-- The valid entries of a set in the order of its ways. -/
def setEntries (t : Tlb) (set : Nat) : List TlbEntry :=
  (List.range kTlbWays).filterMap (t.entries set)

/-- `tlb_lookup`: the first entry of the ASID, or else the first global one. -/
def lookup (t : Tlb) (vaPage : U64) (asid : U16) : Option TlbEntry :=
  let tagged := (t.setEntries (tlbSetIndex vaPage)).filter fun e => e.vaPage == vaPage
  (tagged.find? fun e => !e.attrs.globalEntry && e.asid == asid).or
    (tagged.find? fun e => e.attrs.globalEntry)

/-- The way that `tlb_insert_entry` writes: the slot of the same translation, or the first
free one, or the next to be replaced. -/
def victim (t : Tlb) (e : TlbEntry) : Nat :=
  let set := t.entries (tlbSetIndex e.vaPage)
  ((List.range kTlbWays).find? fun way => (set way).any e.sameSlot).getD
    (((List.range kTlbWays).find? fun way => (set way).isNone).getD
      (t.nextReplace (tlbSetIndex e.vaPage) % kTlbWays))

/-- Does `tlb_insert_entry` evict a valid entry of another translation? -/
def evicts (t : Tlb) (e : TlbEntry) : Bool :=
  (List.range kTlbWays).all fun way =>
    (t.entries (tlbSetIndex e.vaPage) way).any fun slot => !e.sameSlot slot

/-- `tlb_insert_entry`. -/
def insertEntry (t : Tlb) (e : TlbEntry) : Tlb :=
  let set := tlbSetIndex e.vaPage
  { entries := Function.update t.entries set
      (Function.update (t.entries set) (t.victim e) (some e))
    nextReplace :=
      if t.evicts e then
        Function.update t.nextReplace set ((t.nextReplace set + 1) % kTlbWays)
      else t.nextReplace
    lastFetch := none
    lastData := some e }

/-- Drop the entries that `p` selects. -/
def invalidate (t : Tlb) (p : TlbEntry → Bool) : Tlb :=
  { t with
    entries := fun set way => (t.entries set way).filter (!p ·)
    lastFetch := t.lastFetch.filter (!p ·)
    lastData := t.lastData.filter (!p ·) }

/-- `tlb_flush_all`. -/
def flushAll (t : Tlb) : Tlb := { t.invalidate fun _ => true with nextReplace := fun _ => 0 }

/-- `tlb_flush_asid`, the ASID being masked. -/
def flushAsid (t : Tlb) (asid : U16) : Tlb :=
  t.invalidate fun e => !e.attrs.globalEntry && e.asid == asid

/-- `tlb_invalidate_page`, the ASID being masked. -/
def invalidatePage (t : Tlb) (vaPage : U64) (asid : U16) (matchAsid : Bool) : Tlb :=
  t.invalidate fun e => e.coversVaPage vaPage && (!matchAsid || e.matchesAsid asid)

/-! ## What the buffer holds -/

/-- `e` is in a valid slot or in one of the hot entries. -/
def Holds (t : Tlb) (e : TlbEntry) : Prop :=
  (∃ set way, t.entries set way = some e) ∨ t.lastFetch = some e ∨ t.lastData = some e

theorem holds_of_mem_setEntries {t : Tlb} {set : Nat} {e : TlbEntry} (h : e ∈ t.setEntries set) :
    t.Holds e := by
  obtain ⟨way, -, hw⟩ := List.mem_filterMap.1 h
  exact .inl ⟨set, way, hw⟩

/-- A lookup returns a held entry with the tag asked for and a matching ASID. -/
theorem lookup_spec {t : Tlb} {vaPage : U64} {asid : U16} {e : TlbEntry}
    (h : t.lookup vaPage asid = some e) :
    t.Holds e ∧ e.vaPage = vaPage ∧ e.matchesAsid asid = true := by
  unfold lookup at h
  rw [Option.or_eq_some_iff] at h
  have hof : e ∈ (t.setEntries (tlbSetIndex vaPage)).filter (fun e => e.vaPage == vaPage) →
      e.matchesAsid asid = true → t.Holds e ∧ e.vaPage = vaPage ∧ e.matchesAsid asid = true := by
    intro hmem hm
    obtain ⟨hset, htag⟩ := List.mem_filter.1 hmem
    exact ⟨holds_of_mem_setEntries hset, eq_of_beq htag, hm⟩
  rcases h with h | ⟨-, h⟩
  · have hp := List.find?_some h
    simp only [Bool.and_eq_true, beq_iff_eq] at hp
    apply hof (List.mem_of_find?_eq_some h)
    simp [TlbEntry.matchesAsid, hp.2]
  · have hp := List.find?_some h
    apply hof (List.mem_of_find?_eq_some h)
    simp [TlbEntry.matchesAsid, hp]

theorem holds_insertEntry {t : Tlb} {new e : TlbEntry} (h : (t.insertEntry new).Holds e) :
    e = new ∨ t.Holds e := by
  rcases h with ⟨set, way, h⟩ | h | h
  · simp only [insertEntry, Function.update_apply] at h
    split at h
    · next hset =>
      simp only [Function.update_apply] at h
      split at h
      · exact .inl (Option.some.inj h).symm
      · exact .inr (.inl ⟨_, way, h⟩)
    · exact .inr (.inl ⟨set, way, h⟩)
  · cases h
  · exact .inl (Option.some.inj h).symm

theorem holds_invalidate {t : Tlb} {p : TlbEntry → Bool} {e : TlbEntry}
    (h : (t.invalidate p).Holds e) : t.Holds e ∧ p e = false := by
  have hof : ∀ o : Option TlbEntry, o.filter (!p ·) = some e → o = some e ∧ p e = false := by
    intro o ho
    rw [Option.filter_eq_some_iff] at ho
    simpa using ho
  rcases h with ⟨set, way, h⟩ | h | h
  · exact ⟨.inl ⟨set, way, (hof _ h).1⟩, (hof _ h).2⟩
  · exact ⟨.inr (.inl (hof _ h).1), (hof _ h).2⟩
  · exact ⟨.inr (.inr (hof _ h).1), (hof _ h).2⟩

theorem not_holds_flushAll {t : Tlb} {e : TlbEntry} : ¬ t.flushAll.Holds e := by
  intro h
  have := (holds_invalidate (t := t) (p := fun _ => true) h).2
  cases this

theorem not_holds_empty {e : TlbEntry} : ¬ empty.Holds e := by
  rintro (⟨set, way, h⟩ | h | h) <;> cases h

end Tlb
end Aarchvm
