import Agapornis.Foundations.RangeTexts
import Agapornis.Runtime.Limits

namespace Agapornis
namespace Runtime

open Foundations Agapornis.Core RangeTexts

/-!
# The CPU threads that a request pins

The blanks of a list of CPU threads are removed before it is read, so two
numbers with only blanks between them are read as one, and the numbers are
read by a reader which takes a plus sign.  A list in which no number has
either is accepted as it is written.
-/

/-- The largest number that a thread can be given. -/
def usizeLimit : Nat := 2 ^ 64 - 1

theorem parseUsize_eq_ok {text : Text} {number : Nat} :
    parseUsize text = .ok number <-> Readable usizeLimit text number := by
  unfold parseUsize Readable usizeLimit
  cases Text.parseUnsigned (2 ^ 64 - 1) text with
  | none => exact ⟨fun impossible => (by cases impossible), fun impossible => (by cases impossible)⟩
  | some value => rw [Except.ok.injEq, Option.some.injEq]

theorem segmentThreads_eq_ok {segment : Text} {range : Nat × Nat} :
    segmentThreads segment = .ok range <-> Segment (Readable usizeLimit) segment range := by
  unfold segmentThreads
  constructor
  · intro read
    split at read
    · next start stop parts =>
        rcases bind_eq_ok.mp read with ⟨first, readFirst, rest⟩
        rcases bind_eq_ok.mp rest with ⟨last, readLast, same⟩
        cases same
        rw [(Text.splitOnce_eq_some.mp parts).2]
        exact Segment.range (parseUsize_eq_ok.mp readFirst) (parseUsize_eq_ok.mp readLast)
    · rcases bind_eq_ok.mp read with ⟨thread, readThread, same⟩
      cases same
      exact Segment.single (parseUsize_eq_ok.mp readThread)
  · intro written
    cases written with
    | single readThread =>
        rw [Text.splitOnce_eq_none.mpr (no_dash_of_readable readThread)]
        exact bind_eq_ok.mpr ⟨_, parseUsize_eq_ok.mpr readThread, rfl⟩
    | range readFirst readLast =>
        rw [Text.splitOnce_eq_some.mpr ⟨no_dash_of_readable readFirst, rfl⟩]
        exact bind_eq_ok.mpr ⟨_, parseUsize_eq_ok.mpr readFirst,
          bind_eq_ok.mpr ⟨_, parseUsize_eq_ok.mpr readLast, rfl⟩⟩

/-- Threads are selected when each is new. -/
theorem selectThreads_eq_ok {threads : List Nat} : forall {selected result : List Nat},
    selectThreads selected threads = .ok result <->
      (forall thread, thread ∈ threads -> thread ∉ selected) /\ threads.Nodup /\
        result = threads.reverse ++ selected := by
  induction threads with
  | nil =>
      intro selected result
      rw [selectThreads, Except.ok.injEq]
      constructor
      · rintro rfl
        exact ⟨fun _ impossible => (by cases impossible), List.nodup_nil, rfl⟩
      · exact fun known => known.2.2.symm
  | cons thread rest induction =>
      intro selected result
      rw [selectThreads]
      split
      · next listed =>
          constructor
          · exact fun impossible => (by cases impossible)
          · exact fun known => absurd listed (known.1 thread List.mem_cons_self)
      · next fresh =>
          rw [induction, List.nodup_cons, List.reverse_cons, List.append_assoc, List.singleton_append]
          constructor
          · rintro ⟨others, nodup, same⟩
            refine ⟨?_, ⟨?_, nodup⟩, same⟩
            · intro other member
              rcases List.mem_cons.mp member with isThread | inRest
              · rw [isThread]
                exact fresh
              · exact fun inSelected => others other inRest (List.mem_cons_of_mem thread inSelected)
            · exact fun again => others thread again List.mem_cons_self
          · rintro ⟨others, ⟨once, nodup⟩, same⟩
            refine ⟨?_, nodup, same⟩
            intro other inRest inSelected
            rcases List.mem_cons.mp inSelected with isThread | inSelected
            · rw [isThread] at inRest
              exact once inRest
            · exact others other (List.mem_cons_of_mem thread inRest) inSelected

/-- The threads of a range are those from the first to the last. -/
theorem mem_threads {range : Nat × Nat} (ordered : range.1 <= range.2) (thread : Nat) :
    thread ∈ List.range' range.1 (range.2 + 1 - range.1) <-> InRange range thread := by
  rw [List.mem_range'_1, InRange]
  omega

section Selecting

variable (tools : LimitTools)

/-- Ranges that are in order and new, each also to the ones after it. -/
def Selectable (selected : List Nat) (ranges : List (Nat × Nat)) : Prop :=
  (forall range, range ∈ ranges -> range.1 <= range.2 /\ range.2 < tools.available) /\
    (forall range, range ∈ ranges -> forall thread, InRange range thread -> thread ∉ selected) /\
    ranges.Pairwise (fun first second => forall thread, Not (InRange first thread /\ InRange second thread))

theorem selectable_cons {selected : List Nat} {range : Nat × Nat} {rest : List (Nat × Nat)}
    (ordered : range.1 <= range.2) (within : range.2 < tools.available) :
    Selectable tools selected (range :: rest) <->
      (forall thread, InRange range thread -> thread ∉ selected) /\
        Selectable tools ((List.range' range.1 (range.2 + 1 - range.1)).reverse ++ selected) rest := by
  unfold Selectable
  rw [List.forall_mem_cons, List.forall_mem_cons, List.pairwise_cons]
  constructor
  · rintro ⟨⟨_, inOrder⟩, ⟨fresh, others⟩, apart, pairwise⟩
    refine ⟨fresh, inOrder, ?_, pairwise⟩
    intro other member thread inOther inSelected
    rcases List.mem_append.mp inSelected with added | before
    · rw [List.mem_reverse, mem_threads ordered] at added
      exact apart other member thread ⟨added, inOther⟩
    · exact others other member thread inOther before
  · rintro ⟨fresh, inOrder, others, pairwise⟩
    refine ⟨⟨⟨ordered, within⟩, inOrder⟩, ⟨fresh, ?_⟩, ?_, pairwise⟩
    · intro other member thread inOther before
      exact others other member thread inOther (List.mem_append_right _ before)
    · intro other member thread both
      refine others other member thread both.2 (List.mem_append_left _ ?_)
      rw [List.mem_reverse, mem_threads ordered]
      exact both.1

/-- One segment is taken when it can be read, is in order and has new threads only. -/
theorem selectSegments_cons {selected result : List Nat} {segment : Text} {rest : List Text} :
    selectSegments tools selected (segment :: rest) = .ok result <->
      Exists fun range => Segment (Readable usizeLimit) segment range /\ range.1 <= range.2 /\
        range.2 < tools.available /\ (forall thread, InRange range thread -> thread ∉ selected) /\
        selectSegments tools ((List.range' range.1 (range.2 + 1 - range.1)).reverse ++ selected) rest = .ok result := by
  rw [selectSegments, bind_eq_ok]
  constructor
  · rintro ⟨⟨start, stop⟩, read, continued⟩
    rcases bind_eq_ok.mp continued with ⟨_, forwards, continued⟩
    rcases bind_eq_ok.mp continued with ⟨_, present, continued⟩
    rcases bind_eq_ok.mp continued with ⟨next, chosen, continued⟩
    have ordered : start <= stop := Nat.le_of_not_lt (of_decide_eq_false (refuseIf_eq_ok.mp forwards))
    have within : stop < tools.available := Nat.lt_of_not_le (of_decide_eq_false (refuseIf_eq_ok.mp present))
    rcases selectThreads_eq_ok.mp chosen with ⟨fresh, _, same⟩
    rw [same] at continued
    refine ⟨(start, stop), segmentThreads_eq_ok.mp read, ordered, within, ?_, continued⟩
    intro thread inside
    exact fresh thread ((@mem_threads (start, stop) ordered thread).mpr inside)
  · rintro ⟨range, written, ordered, within, fresh, continued⟩
    refine ⟨range, segmentThreads_eq_ok.mpr written, ?_⟩
    refine bind_eq_ok.mpr ⟨(), refuseIf_eq_ok.mpr (decide_eq_false (Nat.not_lt_of_le ordered)), ?_⟩
    refine bind_eq_ok.mpr ⟨(), refuseIf_eq_ok.mpr (decide_eq_false (Nat.not_le_of_lt within)), ?_⟩
    refine bind_eq_ok.mpr ⟨_, selectThreads_eq_ok.mpr ⟨?_, List.nodup_range', rfl⟩, continued⟩
    intro thread inside
    exact fresh thread ((mem_threads ordered thread).mp inside)

/-- What is selected is what the segments name, each once. -/
theorem selectSegments_succeeds {segments : List Text} : forall {selected : List Nat},
    (Exists fun result => selectSegments tools selected segments = .ok result) <->
      Exists fun ranges => List.Forall₂ (Segment (Readable usizeLimit)) segments ranges /\
        Selectable tools selected ranges := by
  induction segments with
  | nil =>
      intro selected
      constructor
      · intro _
        refine ⟨[], List.Forall₂.nil, ?_, ?_, List.Pairwise.nil⟩
        · exact fun _ impossible => (by cases impossible)
        · exact fun _ impossible => (by cases impossible)
      · exact fun _ => ⟨selected, rfl⟩
  | cons segment rest induction =>
      intro selected
      constructor
      · rintro ⟨result, done⟩
        rcases (selectSegments_cons tools).mp done with ⟨range, written, ordered, within, fresh, continued⟩
        rcases induction.mp ⟨result, continued⟩ with ⟨ranges, matched, selectable⟩
        exact ⟨range :: ranges, List.Forall₂.cons written matched,
          (selectable_cons tools ordered within).mpr ⟨fresh, selectable⟩⟩
      · rintro ⟨ranges, matched, selectable⟩
        cases matched with
        | cons written matched =>
            next range ranges =>
              have bounds := selectable.1 range List.mem_cons_self
              rcases (selectable_cons tools bounds.1 bounds.2).mp selectable with ⟨fresh, selectable⟩
              rcases induction.mpr ⟨ranges, matched, selectable⟩ with ⟨result, continued⟩
              exact ⟨result, (selectSegments_cons tools).mpr
                ⟨range, written, bounds.1, bounds.2, fresh, continued⟩⟩

theorem selected_subset {segments : List Text} : forall {selected result : List Nat},
    selectSegments tools selected segments = .ok result -> forall thread, thread ∈ selected -> thread ∈ result := by
  induction segments with
  | nil =>
      intro selected result done thread member
      cases done
      exact member
  | cons segment rest induction =>
      intro selected result done thread member
      rcases (selectSegments_cons tools).mp done with ⟨range, _, _, _, _, continued⟩
      exact induction continued thread (List.mem_append_right _ member)

/-- A list of segments selects at least one thread. -/
theorem selected_nonempty {segments : List Text} (some : Not (segments = [])) {result : List Nat}
    (done : selectSegments tools [] segments = .ok result) : result.isEmpty = false := by
  cases segments with
  | nil => exact absurd rfl some
  | cons segment rest =>
      rcases (selectSegments_cons tools).mp done with ⟨range, _, ordered, _, _, continued⟩
      have member : range.1 ∈ result := by
        refine selected_subset tools continued range.1 (List.mem_append_left _ ?_)
        rw [List.mem_reverse, mem_threads ordered]
        exact ⟨Nat.le_refl range.1, ordered⟩
      rw [List.isEmpty_eq_false_iff]
      exact List.ne_nil_of_mem member

end Selecting

section Pinning

variable {tools : LimitTools} {value : Text}

/-- A list is accepted when it can be read without its blanks, and is kept so. -/
theorem pinnedCpuSet_eq_some {list : Text} :
    pinnedCpuSet tools value = .ok (some list) <-> list = value.filter nonblank /\ Exists fun ranges =>
      RangeListing (Readable usizeLimit) tools.available (value.filter nonblank) ranges := by
  unfold pinnedCpuSet
  rw [show value.filter (fun character => !Text.isWhitespace character) = value.filter nonblank from rfl]
  have listed : (Exists fun ranges => RangeListing (Readable usizeLimit) tools.available (value.filter nonblank) ranges)
      <-> Exists fun result => selectSegments tools [] ((value.filter nonblank).splitOn ',') = .ok result := by
    rw [selectSegments_succeeds]
    constructor
    · rintro ⟨ranges, listing⟩
      exact ⟨ranges, listing.segments, listing.ordered,
        fun _ _ _ _ impossible => (by cases impossible), listing.apart⟩
    · rintro ⟨ranges, matched, ordered, _, apart⟩
      exact ⟨ranges, matched, ordered, apart⟩
  rw [listed]
  dsimp only
  split
  · next nothing =>
      rw [List.isEmpty_iff.mp nothing]
      constructor
      · exact fun impossible => (by cases impossible)
      · rintro ⟨_, result, done⟩
        cases done
  · rw [bind_eq_ok]
    constructor
    · rintro ⟨selected, done, same⟩
      rw [selected_nonempty tools (List.splitOn_ne_nil ',' _) done] at same
      cases same
      exact ⟨rfl, selected, done⟩
    · rintro ⟨same, selected, done⟩
      refine ⟨selected, done, ?_⟩
      rw [selected_nonempty tools (List.splitOn_ne_nil ',' _) done, same]
      rfl

theorem pinnedCpuSet_eq_none :
    pinnedCpuSet tools value = .ok none <->
      forall character, character ∈ value -> Text.isWhitespace character = true := by
  have blank : (value.filter nonblank).isEmpty = true <->
      forall character, character ∈ value -> Text.isWhitespace character = true := by
    rw [List.isEmpty_iff, List.filter_eq_nil_iff]
    unfold nonblank
    simp only [Bool.not_eq_true', Bool.not_eq_false]
  rw [← blank]
  unfold pinnedCpuSet
  rw [show value.filter (fun character => !Text.isWhitespace character) = value.filter nonblank from rfl]
  dsimp only
  split
  · next nothing => exact iff_of_true rfl nothing
  · next some =>
      refine iff_of_false ?_ some
      intro none
      rcases bind_eq_ok.mp none with ⟨selected, done, same⟩
      rw [selected_nonempty tools (List.splitOn_ne_nil ',' _) done] at same
      cases same

variable (tools value)

/-- What a list of CPU threads should look like: numbers and ranges of
threads of the node, each thread once, with blanks around numbers alone. -/
def WellFormedThreads : Prop :=
  Exists fun ranges => RangeListing Numeral tools.available value ranges

/-- A list is pinned when it is well formed, for the threads that it names. -/
structure PinnedExactly : Prop where
  accepted : (Exists fun list => pinnedCpuSet tools value = .ok (some list)) <-> WellFormedThreads tools value
  denotes : forall list, pinnedCpuSet tools value = .ok (some list) ->
    forall thread, Names list thread <-> Names value thread
  absent : pinnedCpuSet tools value = .ok none <->
    forall character, character ∈ value -> Text.isWhitespace character = true
  refused : (Exists fun failure => pinnedCpuSet tools value = .error failure) <->
    Not (WellFormedThreads tools value) /\
      Not (forall character, character ∈ value -> Text.isWhitespace character = true)

variable {tools value}

theorem pinnedExactly_of_accepted
    (accepted : (Exists fun list => pinnedCpuSet tools value = .ok (some list)) <-> WellFormedThreads tools value) :
    PinnedExactly tools value where
  accepted := accepted
  denotes := by
    intro list pinned thread
    rcases accepted.mp ⟨list, pinned⟩ with ⟨ranges, listing⟩
    rw [(pinnedCpuSet_eq_some.mp pinned).1, listing.filter.names_iff, listing.names_iff]
  absent := pinnedCpuSet_eq_none
  refused := by
    rw [← accepted, ← pinnedCpuSet_eq_none]
    rcases pinnedCpuSet tools value with failure | list | list
    · refine iff_of_true ⟨failure, rfl⟩ ⟨?_, fun impossible => (by cases impossible)⟩
      rintro ⟨list, impossible⟩
      cases impossible
    · refine iff_of_false ?_ (fun known => known.2 rfl)
      rintro ⟨failure, impossible⟩
      cases impossible
    · refine iff_of_false ?_ (fun known => known.1 ⟨list, rfl⟩)
      rintro ⟨failure, impossible⟩
      cases impossible

end Pinning

/-- A list is taken as it is written unless blanks or plus signs are passed over to read it. -/
theorem pinned_exactly_iff (tools : LimitTools) (available : UInt64) (value : Text) :
    let node := { tools with available := available.toNat }
    PinnedExactly node value <->
      ((Exists fun ranges => RangeListing (Readable usizeLimit) node.available (value.filter nonblank) ranges) ->
        Tidy value) := by
  intro node
  have fits : node.available <= usizeLimit + 1 := Nat.le_of_lt available.toNat_lt
  constructor
  · rintro exactly ⟨ranges, listing⟩
    rcases exactly.accepted.mp ⟨_, pinnedCpuSet_eq_some.mpr ⟨rfl, ranges, listing⟩⟩ with ⟨_, written⟩
    exact written.tidy
  · intro tidy
    refine pinnedExactly_of_accepted ⟨?_, ?_⟩
    · rintro ⟨list, pinned⟩
      rcases (pinnedCpuSet_eq_some.mp pinned).2 with ⟨ranges, listing⟩
      exact ⟨ranges, listing.numeral (tidy ⟨ranges, listing⟩)⟩
    · rintro ⟨ranges, written⟩
      exact ⟨_, pinnedCpuSet_eq_some.mpr ⟨rfl, ranges, written.readable fits⟩⟩

/-- Two threads with a blank between them are taken for another one. -/
theorem blank_joins_threads :
    pinnedCpuSet sampleLimitTools "0 1".toList = .ok (some "01".toList) /\
      Not (PinnedExactly sampleLimitTools "0 1".toList) := by
  have pinned : pinnedCpuSet sampleLimitTools "0 1".toList = .ok (some "01".toList) := rfl
  refine ⟨pinned, ?_⟩
  intro exactly
  rcases exactly.accepted.mp ⟨_, pinned⟩ with ⟨ranges, written⟩
  have tidy := written.tidy "0 1".toList (by decide) "0 1".toList (by decide) ' ' (by decide)
  cases tidy.1

end Runtime
end Agapornis
