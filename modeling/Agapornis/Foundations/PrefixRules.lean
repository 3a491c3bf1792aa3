import Mathlib.Data.List.Nodup
import Mathlib.Logic.Relation

namespace Agapornis
namespace Foundations

/-!
# Lines that are replaced by their beginnings

Rules go through lines one after the other.  Each puts its replacement in the
place of the lines that begin with its needle, or behind all others if there is
no such line.  What becomes of a line is told by the rules alone: the first one
whose needle begins it takes it, then the first later one whose needle begins
the replacement, and so on.
-/

structure Rule (Item : Type) where
  needle : List Item
  replacement : List Item
  deriving DecidableEq

/-- A rule with the rules behind it. -/
structure Turn (Item : Type) where
  rule : Rule Item
  later : List (Rule Item)
  deriving DecidableEq

section Rules

variable {Item : Type} [DecidableEq Item]

namespace Rule

def begins (rule : Rule Item) (line : List Item) : Bool :=
  rule.needle.isPrefixOf line

def apply (rule : Rule Item) (line : List Item) : List Item :=
  if rule.begins line then rule.replacement else line

def edit (lines : List (List Item)) (rule : Rule Item) : List (List Item) :=
  if lines.any rule.begins then lines.map rule.apply else lines ++ [rule.replacement]

/-- What the rules make of a line. -/
def settle (rules : List (Rule Item)) (line : List Item) : List Item :=
  rules.foldl (fun line rule => rule.apply line) line

/-- The lines for needles that begin no line, as the later rules leave them. -/
def added : List (Rule Item) -> List (List Item) -> List (List Item)
  | [], _ => []
  | rule :: rules, lines =>
      if lines.any rule.begins then added rules (lines.map rule.apply)
      else settle rules rule.replacement :: added rules (lines ++ [rule.replacement])

/-- The lines that the rules leave. -/
def left (rules : List (Rule Item)) (lines : List (List Item)) : List (List Item) :=
  lines.map (settle rules) ++ added rules lines

/-- The first rule whose needle begins a line. -/
def taker : List (Rule Item) -> List Item -> Option (Turn Item)
  | [], _ => none
  | rule :: rules, line => if rule.begins line then some ⟨rule, rules⟩ else taker rules line

def turns : List (Rule Item) -> List (Turn Item)
  | [] => []
  | rule :: rules => ⟨rule, rules⟩ :: turns rules

end Rule

open Rule

namespace Turn

def replacement (turn : Turn Item) : List Item :=
  turn.rule.replacement

/-- The rule that takes the replacement later. -/
def next (turn : Turn Item) : Option (Turn Item) :=
  taker turn.later turn.replacement

/-- No later needle begins the replacement. -/
def Final (turn : Turn Item) : Prop :=
  turn.next = none

/-- The way from one rule to another that takes what it has put. -/
def Leads : Turn Item -> Turn Item -> Prop :=
  Relation.ReflTransGen fun one other => one.next = some other

end Turn

/-- A line stays as it is, or comes to the replacement of the last rule on its way. -/
def Brought (rules : List (Rule Item)) (line result : List Item) : Prop :=
  (taker rules line = none /\ result = line) \/
    Exists fun first => taker rules line = some first /\
      Exists fun last : Turn Item => first.Leads last /\ last.Final /\ result = last.replacement

/-- A rule finds one of the lines, or what an earlier rule has put. -/
def Found (rules : List (Rule Item)) (lines : List (List Item)) (turn : Turn Item) : Prop :=
  (Exists fun line => line ∈ lines /\ taker rules line = some turn) \/
    Exists fun other => other ∈ turns rules /\ other.next = some turn

instance (rules : List (Rule Item)) (lines : List (List Item)) (turn : Turn Item) :
    Decidable (Found rules lines turn) :=
  inferInstanceAs (Decidable (_ \/ _))

/-- The rules that find nothing. -/
def adders (rules : List (Rule Item)) (lines : List (List Item)) : List (Turn Item) :=
  (turns rules).filter fun turn => decide (Not (Found rules lines turn))

/-- The lines as they are and as they are added, with the rules they go through then. -/
def starts (rules : List (Rule Item)) (lines : List (List Item)) : List (List Item × List (Rule Item)) :=
  lines.map (fun line => (line, rules)) ++
    (adders rules lines).map fun turn => (turn.replacement, turn.later)

/-! ## What becomes of one line -/

variable {rules : List (Rule Item)} {line : List Item}

theorem settle_of_no_taker (untaken : taker rules line = none) : settle rules line = line := by
  induction rules with
  | nil => rfl
  | cons rule rules induction =>
      rw [taker] at untaken
      split at untaken
      · cases untaken
      · next other =>
          rw [settle, List.foldl_cons, Rule.apply, if_neg other]
          exact induction untaken

theorem settle_of_taker {turn : Turn Item} (takes : taker rules line = some turn) :
    settle rules line = settle turn.later turn.replacement := by
  induction rules with
  | nil => cases takes
  | cons rule rules induction =>
      rw [taker] at takes
      split at takes
      · next begins =>
          rw [settle, List.foldl_cons, Rule.apply, if_pos begins, ← Option.some.inj takes]
          rfl
      · next other =>
          rw [settle, List.foldl_cons, Rule.apply, if_neg other]
          exact induction takes

theorem taker_eq_none_iff : taker rules line = none <-> forall rule, rule ∈ rules -> rule.begins line = false := by
  induction rules with
  | nil => exact iff_of_true rfl (fun _ impossible => absurd impossible List.not_mem_nil)
  | cons rule rules induction =>
      rw [List.forall_mem_cons, taker]
      cases begins : rule.begins line with
      | true => exact iff_of_false (Option.some_ne_none _) (fun both => Bool.noConfusion both.1)
      | false =>
          rw [if_neg Bool.false_ne_true, induction]
          exact (and_iff_right rfl).symm

/-- A needle that begins the beginning of a line begins the line. -/
theorem untaken_of_prefix_of {front : List Item} (begins : front <+: line) (untaken : taker rules line = none) :
    taker rules front = none := by
  rw [taker_eq_none_iff] at untaken ⊢
  intro rule member
  apply Bool.eq_false_iff.mpr
  intro inFront
  have inLine : rule.begins line = true :=
    List.isPrefixOf_iff_prefix.mpr ((List.isPrefixOf_iff_prefix.mp inFront).trans begins)
  rw [untaken rule member] at inLine
  cases inLine

theorem mem_turns_of_taker {turn : Turn Item} (takes : taker rules line = some turn) : turn ∈ turns rules := by
  induction rules with
  | nil => cases takes
  | cons rule rules induction =>
      rw [taker] at takes
      split at takes
      · rw [← Option.some.inj takes]
        exact List.mem_cons_self
      · exact List.mem_cons_of_mem _ (induction takes)

omit [DecidableEq Item] in
theorem later_lt_of_mem_turns {turn : Turn Item} (member : turn ∈ turns rules) :
    turn.later.length < rules.length := by
  induction rules with
  | nil => cases member
  | cons rule rules induction =>
      rcases List.mem_cons.mp member with isFirst | later
      · rw [isFirst]
        exact Nat.lt_succ_self _
      · exact Nat.lt_succ_of_lt (induction later)

omit [DecidableEq Item] in
theorem mem_turns_later {turn other : Turn Item} (member : turn ∈ turns rules) (later : other ∈ turns turn.later) :
    other ∈ turns rules := by
  induction rules with
  | nil => cases member
  | cons rule rules induction =>
      rcases List.mem_cons.mp member with isFirst | inside
      · rw [isFirst] at later
        exact List.mem_cons_of_mem _ later
      · exact List.mem_cons_of_mem _ (induction inside)

theorem Turn.mem_of_next {turn other : Turn Item} (member : turn ∈ turns rules) (next : turn.next = some other) :
    other ∈ turns rules :=
  mem_turns_later member (mem_turns_of_taker next)

theorem Turn.mem_of_leads {turn last : Turn Item} (member : turn ∈ turns rules) (leads : turn.Leads last) :
    last ∈ turns rules := by
  induction leads with
  | refl => exact member
  | tail _ next induction => exact Turn.mem_of_next induction next

/-- What a rule has put comes to the replacement of the last rule on its way. -/
theorem Turn.settle_of_leads {turn last : Turn Item} (leads : turn.Leads last) (final : last.Final) :
    settle turn.later turn.replacement = last.replacement := by
  induction leads using Relation.ReflTransGen.head_induction_on with
  | refl => exact settle_of_no_taker final
  | head next _ induction => exact (settle_of_taker next).trans induction

theorem Turn.exists_last (bound : Nat) : forall turn : Turn Item, turn.later.length < bound ->
    Exists fun last => turn.Leads last /\ last.Final := by
  induction bound with
  | zero => exact fun _ impossible => absurd impossible (Nat.not_lt_zero _)
  | succ bound induction =>
      intro turn short
      cases next : turn.next with
      | none => exact ⟨turn, Relation.ReflTransGen.refl, next⟩
      | some other =>
          have less := later_lt_of_mem_turns (mem_turns_of_taker next)
          rcases induction other (by omega) with ⟨last, leads, final⟩
          exact ⟨last, Relation.ReflTransGen.head next leads, final⟩

theorem brought_iff {result : List Item} : Brought rules line result <-> settle rules line = result := by
  constructor
  · rintro (⟨untaken, same⟩ | ⟨first, takes, last, leads, final, same⟩)
    · rw [settle_of_no_taker untaken, same]
    · rw [settle_of_taker takes, Turn.settle_of_leads leads final, same]
  · intro settled
    cases takes : taker rules line with
    | none => exact Or.inl ⟨takes, by rw [← settled, settle_of_no_taker takes]⟩
    | some first =>
        rcases Turn.exists_last _ first (Nat.lt_succ_self _) with ⟨last, leads, final⟩
        refine Or.inr ⟨first, takes, last, leads, final, ?_⟩
        rw [← settled, settle_of_taker takes, Turn.settle_of_leads leads final]

/-! ## What becomes of all lines -/

theorem foldl_edit (rules : List (Rule Item)) : forall lines, rules.foldl edit lines = left rules lines := by
  induction rules with
  | nil =>
      intro lines
      exact ((List.append_nil _).trans (List.map_id lines)).symm
  | cons rule rules induction =>
      intro lines
      rw [List.foldl_cons, induction, left, left, edit, added]
      cases found : lines.any rule.begins with
      | true =>
          rw [if_pos rfl, if_pos rfl, List.map_map]
          rfl
      | false =>
          have kept : lines.map (settle (rule :: rules)) = lines.map (settle rules) := by
            apply List.map_congr_left
            intro line member
            rw [settle, List.foldl_cons, Rule.apply, if_neg (List.any_eq_false.mp found line member)]
            rfl
          rw [if_neg Bool.false_ne_true, if_neg Bool.false_ne_true, kept, List.map_append, List.map_singleton,
            List.append_assoc]
          rfl

/-- After its turn a rule's replacement is among the lines, with those that it did not take. -/
theorem mem_edit {rule : Rule Item} {lines : List (List Item)} :
    line ∈ edit lines rule <-> line = rule.replacement \/ (line ∈ lines /\ rule.begins line = false) := by
  rw [edit]
  cases found : lines.any rule.begins with
  | true =>
      rcases List.any_eq_true.mp found with ⟨taken, inside, begins⟩
      rw [if_pos rfl, List.mem_map]
      constructor
      · rintro ⟨origin, member, same⟩
        rw [Rule.apply] at same
        split at same
        · exact Or.inl same.symm
        · next other => exact Or.inr (same ▸ ⟨member, Bool.eq_false_iff.mpr other⟩)
      · rintro (isReplacement | ⟨member, other⟩)
        · exact ⟨taken, inside, by rw [Rule.apply, if_pos begins, isReplacement]⟩
        · exact ⟨line, member, by rw [Rule.apply, if_neg (Bool.eq_false_iff.mp other)]⟩
  | false =>
      rw [if_neg Bool.false_ne_true, List.mem_append, List.mem_singleton, Or.comm]
      refine or_congr_right ⟨fun member => ⟨member, ?_⟩, And.left⟩
      exact Bool.eq_false_iff.mpr (List.any_eq_false.mp found line member)

theorem found_head {rule : Rule Item} {lines : List (List Item)} :
    Found (rule :: rules) lines ⟨rule, rules⟩ <-> lines.any rule.begins = true := by
  have notLater {turn : Turn Item} (member : turn ∈ turns rules) : Not (turn = ⟨rule, rules⟩) := by
    intro same
    have less := later_lt_of_mem_turns member
    rw [same] at less
    exact absurd less (Nat.lt_irrefl _)
  rw [List.any_eq_true, Found]
  constructor
  · rintro (⟨line, member, takes⟩ | ⟨other, member, next⟩)
    · rw [taker] at takes
      split at takes
      · next begins => exact ⟨line, member, begins⟩
      · exact absurd rfl (notLater (mem_turns_of_taker takes))
    · rcases List.mem_cons.mp member with isFirst | inside
      · rw [isFirst] at next
        exact absurd rfl (notLater (mem_turns_of_taker next))
      · exact absurd rfl (notLater (Turn.mem_of_next inside next))
  · rintro ⟨line, member, begins⟩
    exact Or.inl ⟨line, member, by rw [taker, if_pos begins]⟩

/-- A later rule finds the same after the first one's turn. -/
theorem found_tail {rule : Rule Item} {lines : List (List Item)} {turn : Turn Item} (member : turn ∈ turns rules) :
    Found (rule :: rules) lines turn <-> Found rules (edit lines rule) turn := by
  have other : Not (Turn.mk rule rules = turn) := by
    intro same
    have less := later_lt_of_mem_turns member
    rw [← same] at less
    exact absurd less (Nat.lt_irrefl _)
  constructor
  · rintro (⟨line, inside, takes⟩ | ⟨earlier, inside, next⟩)
    · rw [taker] at takes
      split at takes
      · exact absurd (Option.some.inj takes) other
      · next apart => exact Or.inl ⟨line, mem_edit.mpr (Or.inr ⟨inside, Bool.eq_false_iff.mpr apart⟩), takes⟩
    · rcases List.mem_cons.mp inside with isFirst | later
      · rw [isFirst] at next
        exact Or.inl ⟨rule.replacement, mem_edit.mpr (Or.inl rfl), next⟩
      · exact Or.inr ⟨earlier, later, next⟩
  · rintro (⟨line, inside, takes⟩ | ⟨earlier, inside, next⟩)
    · rcases mem_edit.mp inside with isReplacement | ⟨origin, apart⟩
      · rw [isReplacement] at takes
        exact Or.inr ⟨⟨rule, rules⟩, List.mem_cons_self, takes⟩
      · refine Or.inl ⟨line, origin, ?_⟩
        rw [taker, if_neg (Bool.eq_false_iff.mp apart)]
        exact takes
    · exact Or.inr ⟨earlier, List.mem_cons_of_mem _ inside, next⟩

theorem adders_cons (rule : Rule Item) (lines : List (List Item)) : adders (rule :: rules) lines =
    (if lines.any rule.begins then [] else [⟨rule, rules⟩]) ++ adders rules (edit lines rule) := by
  have later : (turns rules).filter (fun turn => decide (Not (Found (rule :: rules) lines turn))) =
      adders rules (edit lines rule) := by
    apply List.filter_congr
    intro turn member
    exact decide_eq_decide.mpr (not_congr (found_tail member))
  rw [adders, turns, List.filter_cons, later]
  cases found : lines.any rule.begins with
  | true =>
      rw [if_neg (by rw [decide_eq_true_eq]; exact not_not.mpr (found_head.mpr found)), if_pos rfl]
      rfl
  | false =>
      have lost : Not (Found (rule :: rules) lines ⟨rule, rules⟩) := by
        rw [found_head, found]
        exact Bool.false_ne_true
      rw [if_pos (decide_eq_true lost), if_neg Bool.false_ne_true]
      rfl

theorem added_eq (rules : List (Rule Item)) : forall lines,
    added rules lines = (adders rules lines).map fun turn => settle turn.later turn.replacement := by
  induction rules with
  | nil => exact fun _ => rfl
  | cons rule rules induction =>
      intro lines
      rw [added, adders_cons, edit]
      cases found : lines.any rule.begins with
      | true => exact induction _
      | false => exact congrArg (settle rules rule.replacement :: ·) (induction _)

/-- The lines that are left, each from where it starts. -/
theorem left_eq (lines : List (List Item)) :
    left rules lines = (starts rules lines).map fun start => settle start.2 start.1 := by
  rw [left, starts, List.map_append, List.map_map, List.map_map, added_eq]
  rfl

omit [DecidableEq Item] in
theorem rule_mem_of_mem_turns {turn : Turn Item} (member : turn ∈ turns rules) : turn.rule ∈ rules := by
  induction rules with
  | nil => cases member
  | cons rule rules induction =>
      rcases List.mem_cons.mp member with isFirst | later
      · rw [isFirst]
        exact List.mem_cons_self
      · exact List.mem_cons_of_mem _ (induction later)

theorem left_cons (rule : Rule Item) (lines : List (List Item)) :
    left (rule :: rules) lines = left rules (edit lines rule) := by
  rw [← foldl_edit, ← foldl_edit, List.foldl_cons]

/-- Every rule leaves its replacement, if no later one takes it. -/
theorem Turn.Final.left {turn : Turn Item} (final : turn.Final) (member : turn ∈ turns rules) :
    forall lines, turn.replacement ∈ Rule.left rules lines := by
  induction rules with
  | nil => cases member
  | cons rule rules induction =>
      intro lines
      rw [left_cons]
      rcases List.mem_cons.mp member with isFirst | later
      · subst isFirst
        refine List.mem_append_left _ (List.mem_map.mpr ⟨rule.replacement, mem_edit.mpr (Or.inl rfl), ?_⟩)
        exact settle_of_no_taker final
      · exact induction later _

/-- Where a line starts, a line or a replacement is left. -/
theorem settle_start {lines : List (List Item)} {start : List Item × List (Rule Item)}
    (member : start ∈ starts rules lines) :
    (settle start.2 start.1 ∈ lines /\ taker rules (settle start.2 start.1) = none) \/
      Exists fun last => last ∈ turns rules /\ last.Final /\ settle start.2 start.1 = last.replacement := by
  rcases List.mem_append.mp member with old | new
  · rcases List.mem_map.mp old with ⟨line, inside, rfl⟩
    rcases brought_iff.mpr (Eq.refl (settle rules line)) with ⟨untaken, same⟩ | ⟨first, takes, last, leads, final, same⟩
    · rw [same]
      exact Or.inl ⟨inside, untaken⟩
    · exact Or.inr ⟨last, Turn.mem_of_leads (mem_turns_of_taker takes) leads, final, same⟩
  · rcases List.mem_map.mp new with ⟨turn, inside, rfl⟩
    have isTurn := (List.mem_filter.mp inside).1
    rcases Turn.exists_last _ turn (Nat.lt_succ_self _) with ⟨last, leads, final⟩
    exact Or.inr ⟨last, Turn.mem_of_leads isTurn leads, final, Turn.settle_of_leads leads final⟩

/-- A line that is left is one of the lines or a replacement. -/
theorem mem_left {lines : List (List Item)} (member : line ∈ left rules lines) :
    line ∈ lines \/ Exists fun rule => rule ∈ rules /\ line = rule.replacement := by
  rw [left_eq] at member
  rcases List.mem_map.mp member with ⟨start, inside, same⟩
  rw [← same]
  rcases settle_start inside with ⟨old, _⟩ | ⟨last, isTurn, _, isReplacement⟩
  · exact Or.inl old
  · exact Or.inr ⟨last.rule, rule_mem_of_mem_turns isTurn, isReplacement⟩

omit [DecidableEq Item] in
theorem nodup_turns (rules : List (Rule Item)) : (turns rules).Nodup := by
  induction rules with
  | nil => exact List.nodup_nil
  | cons rule rules induction =>
      refine List.nodup_cons.mpr ⟨fun member => ?_, induction⟩
      exact absurd (later_lt_of_mem_turns member) (Nat.lt_irrefl _)

/-! ## What is added -/

variable {lines : List (List Item)}

theorem added_eq_nil_iff : added rules lines = [] <-> forall turn, turn ∈ turns rules -> Found rules lines turn := by
  rw [added_eq, List.map_eq_nil_iff, adders, List.filter_eq_nil_iff]
  refine forall_congr' fun turn => imp_congr_right fun _ => ?_
  rw [decide_eq_true_eq]
  exact not_not

/-- A single line is added for the one rule that finds nothing. -/
theorem added_eq_singleton_iff : added rules lines = [line] <->
    Exists fun lost => lost ∈ turns rules /\
      (forall turn, turn ∈ turns rules -> (Found rules lines turn <-> Not (turn = lost))) /\
      Brought lost.later lost.replacement line := by
  rw [added_eq, List.map_eq_singleton_iff]
  refine exists_congr fun lost => ?_
  rw [brought_iff, ← and_assoc]
  refine and_congr_left fun _ => ?_
  constructor
  · intro alone
    have adds (turn : Turn Item) : turn ∈ adders rules lines <-> turn = lost := by rw [alone, List.mem_singleton]
    have isAdder := List.mem_filter.mp ((adds lost).mpr rfl)
    refine ⟨isAdder.1, fun turn member => ?_⟩
    have own := adds turn
    rw [adders, List.mem_filter, and_iff_right member, decide_eq_true_eq] at own
    rw [← own, not_not]
  · rintro ⟨member, others⟩
    have isLost : adders rules lines = (turns rules).filter fun turn => turn = lost := by
      apply List.filter_congr
      intro turn inside
      exact decide_eq_decide.mpr ((not_congr (others turn inside)).trans not_not)
    rw [isLost, List.filter_eq, List.count_eq_one_of_mem (nodup_turns rules) member]
    rfl

end Rules

end Foundations
end Agapornis
