import Lookahead.Proofs.Registry.Resolved
import Lookahead.Proofs.Rule.Written
import Mathlib.Data.List.Infix

/-!
# What becomes of a rule

A rule may be wrong in several ways at once, and only one of them is reported.
`Verdict` lists the six ways in which reading can end, each with the whole
condition for it, and `read_eq_iff` says that reading follows the list and nothing
else.

The number of arrows comes first: it is counted without looking for the sides, so
no name matters while it is wrong. Then the names of both sides are looked up from
the left to the right, and the first one that stands for nothing is reported even
when its side is not the only thing that is wrong. A side without any name is the
last thing to be noticed.
-/
namespace Lookahead

namespace Text

/-- The code points with the property White_Space. -/
def whiteSpace : List ℕ :=
  [0x9, 0xa, 0xb, 0xc, 0xd, 0x20, 0x85, 0xa0, 0x1680, 0x2000, 0x2001, 0x2002, 0x2003, 0x2004,
    0x2005, 0x2006, 0x2007, 0x2008, 0x2009, 0x200a, 0x2028, 0x2029, 0x202f, 0x205f, 0x3000]

theorem Ranges.holds_iff {r : Ranges} {c : Char} :
    r.holds c = true ↔ c.toNat ∈ r.flatMap fun e => List.range' e.1 (e.2 + 1 - e.1) := by
  rw [Ranges.holds, List.any_eq_true, List.mem_flatMap]
  refine exists_congr fun e => and_congr_right fun _ => ?_
  rw [Bool.and_eq_true, decide_eq_true_eq, decide_eq_true_eq, List.mem_range'_1]
  omega

theorem isBlank_iff {c : Char} : isBlank c = true ↔ c.toNat ∈ whiteSpace := by
  have hall : (blankRanges.flatMap fun e => List.range' e.1 (e.2 + 1 - e.1)) = whiteSpace := by
    decide
  rw [isBlank, Ranges.holds_iff, hall]

end Text

namespace Rule

open Text

variable {r : Registry} {text : String} {chars before after : List Char}
  {left right names : List String} {name : String}

section Arrows

/-- How often the arrow stands in the text. -/
def arrows (chars : List Char) : ℕ := chars.tails.countP fun tail => arrow.toList.isPrefixOf tail

theorem arrows_cons (c : Char) (chars : List Char) :
    arrows (c :: chars) =
      arrows chars + if arrow.toList.isPrefixOf (c :: chars) then 1 else 0 := by
  rw [arrows, List.tails_cons, List.countP_cons, arrows]

theorem arrows_eq_zero_iff : arrows chars = 0 ↔ ArrowFree chars := by
  unfold arrows ArrowFree
  rw [List.countP_eq_zero, List.infix_iff_prefix_suffix, not_exists]
  refine forall_congr' fun tail => ?_
  rw [List.mem_tails, List.isPrefixOf_iff_prefix, not_and, imp_not_comm]

/-- No arrow is made where an arrow meets the text before it or the text after it. -/
theorem arrows_append (before after : List Char) :
    arrows (before ++ '-' :: '>' :: after) = arrows before + arrows after + 1 := by
  have hnil : arrows [] = 0 := arrows_eq_zero_iff.mpr arrowFree_nil
  induction before with
  | nil =>
      rw [List.nil_append, arrows_cons, arrows_cons, hnil]
      simp [toList_arrow]
  | cons c before ih =>
      have hfirst : arrow.toList.isPrefixOf (c :: (before ++ '-' :: '>' :: after)) =
          arrow.toList.isPrefixOf (c :: before) := by
        rw [toList_arrow]
        cases before with
        | nil => simp [List.isPrefixOf]
        | cons d before => simp [List.isPrefixOf]
      rw [List.cons_append, arrows_cons, ih, arrows_cons, hfirst]
      omega

theorem arrows_of_cut? (h : cut? chars = some (before, after)) :
    arrows chars = arrows after + 1 := by
  rw [eq_of_cut? h, arrows_append, arrows_eq_zero_iff.mpr (arrowFree_of_cut? h), Nat.zero_add]

end Arrows

section Sides

/-- The text has one arrow, and these are the words before it and after it. -/
structure Sides (text : String) (left right : List String) : Prop where
  one : arrows text.toList = 1
  written : Written left right text
  words : ∀ name ∈ left ++ right, IsWord name.toList

theorem ofChars_of_cut? (hcut : cut? chars = some (before, after)) (ha : ArrowFree after) :
    ofChars r chars = ofSides r before after := by
  unfold ofChars
  rw [hcut]
  simp only [cut?_eq_none_iff.mpr ha]

/-- A text with one arrow is cut there into its two sides. -/
theorem Sides.exists_ofChars (h : Sides text left right) (r : Registry) :
    ∃ before after, ofChars r text.toList = ofSides r before after ∧
      (Text.words before).map String.ofList = left ∧
      (Text.words after).map String.ofList = right := by
  obtain ⟨before, after, htext, hbefore, hafter⟩ := h.written
  obtain ⟨hl, hr⟩ := List.forall_mem_append.mp h.words
  have hone := h.one
  rw [toList_arrow, List.append_assoc] at htext
  rw [htext, List.cons_append, List.singleton_append, arrows_append] at hone
  have hcut : cut? text.toList = some (before, after) := by
    rw [htext]
    exact cut?_append (arrows_eq_zero_iff.mp (by omega))
  have ha : ArrowFree after := arrows_eq_zero_iff.mp (by omega)
  exact ⟨before, after, ofChars_of_cut? hcut ha, map_words_eq_iff.mpr ⟨hl, hbefore⟩,
    map_words_eq_iff.mpr ⟨hr, hafter⟩⟩

theorem sides_of_cut? (hcut : cut? text.toList = some (before, after)) (ha : ArrowFree after) :
    Sides text ((Text.words before).map String.ofList) ((Text.words after).map String.ofList) := by
  obtain ⟨hl, hbefore⟩ := map_words_eq_iff.mp (rfl : (Text.words before).map String.ofList = _)
  obtain ⟨hr, hafter⟩ := map_words_eq_iff.mp (rfl : (Text.words after).map String.ofList = _)
  refine ⟨?_, ⟨before, after, ?_, hbefore, hafter⟩, List.forall_mem_append.mpr ⟨hl, hr⟩⟩
  · rw [arrows_of_cut? hcut, arrows_eq_zero_iff.mpr ha]
  · rw [eq_of_cut? hcut, toList_arrow, List.append_assoc]
    rfl

end Sides

section Unknown

/-- The first of the names that stands for nothing. -/
inductive FirstUnknown (r : Registry) : List String → String → Prop
  | here {name : String} {names : List String} (h : ∀ s, r.resolve name ≠ .ok s) :
      FirstUnknown r (name :: names) name
  | later {known name : String} {names : List String} {s : Symbol} (h : r.resolve known = .ok s) :
      FirstUnknown r names name → FirstUnknown r (known :: names) name

theorem firstUnknown_cons_of_ok {known : String} {s : Symbol} (h : r.resolve known = .ok s) :
    FirstUnknown r (known :: names) name ↔ FirstUnknown r names name := by
  constructor
  · intro hf
    cases hf with
    | here hno => exact absurd h (hno s)
    | later _ hf => exact hf
  · exact .later h

theorem FirstUnknown.append (h : FirstUnknown r left name) (right : List String) :
    FirstUnknown r (left ++ right) name := by
  induction h with
  | here h => exact .here h
  | later h _ ih => exact .later h ih

/-- Names that all stand for something are passed over. -/
theorem firstUnknown_append_iff {symbols : List Symbol} (h : Names r left symbols) :
    FirstUnknown r (left ++ right) name ↔ FirstUnknown r right name := by
  induction h with
  | nil => rfl
  | cons h _ ih => rw [List.cons_append, firstUnknown_cons_of_ok h, ih]

theorem FirstUnknown.unique {first : String} (h : FirstUnknown r names first)
    (hn : FirstUnknown r names name) : name = first := by
  induction h with
  | here hno =>
      cases hn with
      | here => rfl
      | later h => exact absurd h (hno _)
  | later hs _ ih => exact ih ((firstUnknown_cons_of_ok hs).mp hn)

theorem resolveSide_eq_error_iff {side : List Char} {d : RuleDefect} :
    resolveSide r side = .error d ↔
      ∃ name, FirstUnknown r ((words side).map String.ofList) name ∧ d = .unresolved ⟨name⟩ := by
  unfold resolveSide
  induction words side with
  | nil =>
      constructor
      · intro h
        cases h
      · intro h
        obtain ⟨name, hfirst, _⟩ := h
        cases hfirst
  | cons word ws ih =>
      rw [List.mapM_cons, bind_eq_error_iff, List.map_cons]
      cases hres : r.resolve (String.ofList word) with
      | ok s =>
          simp only [firstUnknown_cons_of_ok hres, ← ih]
          simp [Except.mapError, bind_eq_error_iff, pure, Except.pure]
      | error f =>
          have hno : ∀ s, r.resolve (String.ofList word) ≠ .ok s := by simp [hres]
          cases Registry.eq_of_resolve_error hres
          constructor
          · intro h
            cases h with
            | inl h =>
                cases h
                exact ⟨_, .here hno, rfl⟩
            | inr h =>
                obtain ⟨_, h, _⟩ := h
                cases h
          · intro h
            obtain ⟨name, hfirst, hd⟩ := h
            cases hfirst with
            | here => exact .inl (by rw [hd]; rfl)
            | later h => exact absurd h (hno _)

end Unknown

/-- What reading a rule ends in. A later way needs what rules out the earlier ones. -/
inductive Verdict (r : Registry) (text : String) : Except RuleFault Production → Prop
  | manyArrows : 2 ≤ arrows text.toList → Verdict r text (.error ⟨text, .manyArrows⟩)
  | noArrow : arrows text.toList = 0 → Verdict r text (.error ⟨text, .noArrow⟩)
  | unresolved {left right : List String} {name : String} : Sides text left right →
      FirstUnknown r (left ++ right) name → Verdict r text (.error ⟨text, .unresolved ⟨name⟩⟩)
  | noLeftSide {right : List String} {symbols : List Symbol} : Sides text [] right →
      Names r right symbols → Verdict r text (.error ⟨text, .noLeftSide⟩)
  | noRightSide {left : List String} {symbols : List Symbol} : Sides text left [] →
      left ≠ [] → Names r left symbols → Verdict r text (.error ⟨text, .noRightSide⟩)
  | ok {left right : List String} {p : Production} : Sides text left right →
      left ≠ [] → right ≠ [] → Names r left p.lhs → Names r right p.rhs → Verdict r text (.ok p)

section Reading

variable {lhs rhs symbols : List Symbol} {d : RuleDefect}

theorem Names.eq_nil_iff (h : Names r names symbols) : symbols = [] ↔ names = [] := by
  rw [← List.length_eq_zero_iff, ← List.length_eq_zero_iff, List.Forall₂.length_eq h]

theorem ofSides_of_error_left (hl : resolveSide r before = .error d) :
    ofSides r before after = .error d := by
  unfold ofSides
  rw [hl]
  rfl

theorem ofSides_of_error_right (hl : resolveSide r before = .ok lhs)
    (hr : resolveSide r after = .error d) : ofSides r before after = .error d := by
  unfold ofSides
  rw [hl, hr]
  rfl

/-- An empty side is noticed when all names are known. -/
theorem ofSides_of_names (hl : Names r ((words before).map String.ofList) lhs)
    (hr : Names r ((words after).map String.ofList) rhs) :
    ofSides r before after =
      if lhs.isEmpty then .error .noLeftSide
      else if rhs.isEmpty then .error .noRightSide
      else .ok ⟨lhs, rhs⟩ := by
  unfold ofSides
  rw [resolveSide_eq_ok_iff.mpr hl, resolveSide_eq_ok_iff.mpr hr]
  rfl

/-- The words of the two sides decide what is made of them. -/
theorem verdict_ofSides
    (h : Sides text ((words before).map String.ofList) ((words after).map String.ofList)) :
    Verdict r text ((ofSides r before after).mapError (RuleFault.mk text)) := by
  cases hl : resolveSide r before with
  | error d =>
      obtain ⟨name, hfirst, rfl⟩ := resolveSide_eq_error_iff.mp hl
      rw [ofSides_of_error_left hl]
      exact .unresolved h (hfirst.append _)
  | ok lhs =>
      have hlhs := resolveSide_eq_ok_iff.mp hl
      cases hr : resolveSide r after with
      | error d =>
          obtain ⟨name, hfirst, rfl⟩ := resolveSide_eq_error_iff.mp hr
          rw [ofSides_of_error_right hl hr]
          exact .unresolved h ((firstUnknown_append_iff hlhs).mpr hfirst)
      | ok rhs =>
          have hrhs := resolveSide_eq_ok_iff.mp hr
          rw [ofSides_of_names hlhs hrhs]
          split
          next hempty =>
            rw [hlhs.eq_nil_iff.mp (List.isEmpty_iff.mp hempty)] at h
            exact .noLeftSide h hrhs
          next hleft =>
            have hleft := mt hlhs.eq_nil_iff.mpr (mt List.isEmpty_iff.mpr hleft)
            split
            next hempty =>
              rw [hrhs.eq_nil_iff.mp (List.isEmpty_iff.mp hempty)] at h
              exact .noRightSide h hleft hlhs
            next hright =>
              have hright := mt hrhs.eq_nil_iff.mpr (mt List.isEmpty_iff.mpr hright)
              exact .ok h hleft hright hlhs hrhs

theorem verdict_read (r : Registry) (text : String) : Verdict r text (read r text) := by
  unfold read
  cases hcut : cut? text.toList with
  | none =>
      unfold ofChars
      rw [hcut]
      exact .noArrow (arrows_eq_zero_iff.mpr (cut?_eq_none_iff.mp hcut))
  | some sides =>
      obtain ⟨before, after⟩ := sides
      cases hnext : cut? after with
      | none =>
          have ha := cut?_eq_none_iff.mp hnext
          rw [ofChars_of_cut? hcut ha]
          exact verdict_ofSides (sides_of_cut? hcut ha)
      | some rest =>
          obtain ⟨middle, rest⟩ := rest
          unfold ofChars
          rw [hcut]
          simp only [hnext]
          refine .manyArrows ?_
          rw [arrows_of_cut? hcut, arrows_of_cut? hnext]
          omega

theorem ofSides_of_firstUnknown
    (h : FirstUnknown r ((words before).map String.ofList ++ (words after).map String.ofList)
      name) :
    ofSides r before after = .error (.unresolved ⟨name⟩) := by
  cases hl : resolveSide r before with
  | error d =>
      obtain ⟨first, hfirst, rfl⟩ := resolveSide_eq_error_iff.mp hl
      rw [ofSides_of_error_left hl, (hfirst.append _).unique h]
  | ok lhs =>
      have hafter := (firstUnknown_append_iff (resolveSide_eq_ok_iff.mp hl)).mp h
      exact ofSides_of_error_right hl (resolveSide_eq_error_iff.mpr ⟨name, hafter, rfl⟩)

theorem ofChars_of_two_le_arrows (h : 2 ≤ arrows chars) :
    ofChars r chars = .error .manyArrows := by
  unfold ofChars
  split
  next hcut =>
    rw [arrows_eq_zero_iff.mpr (cut?_eq_none_iff.mp hcut)] at h
    omega
  next before after hcut =>
    split
    next => rfl
    next hnone =>
      rw [arrows_of_cut? hcut, arrows_eq_zero_iff.mpr (cut?_eq_none_iff.mp hnone)] at h
      omega

theorem Verdict.read_eq {result : Except RuleFault Production} (h : Verdict r text result) :
    read r text = result := by
  unfold read
  cases h with
  | manyArrows h =>
      rw [ofChars_of_two_le_arrows h]
      rfl
  | noArrow h =>
      rw [ofChars, cut?_eq_none_iff.mpr (arrows_eq_zero_iff.mp h)]
      rfl
  | unresolved hs hfirst =>
      obtain ⟨before, after, hread, rfl, rfl⟩ := hs.exists_ofChars r
      rw [hread, ofSides_of_firstUnknown hfirst]
      rfl
  | noLeftSide hs hr =>
      obtain ⟨before, after, hread, hl, rfl⟩ := hs.exists_ofChars r
      have hnil : Names r ((words before).map String.ofList) [] := by
        rw [hl]
        exact .nil
      rw [hread, ofSides_of_names hnil hr]
      rfl
  | noRightSide hs hleft hl =>
      obtain ⟨before, after, hread, rfl, hr⟩ := hs.exists_ofChars r
      have hnil : Names r ((words after).map String.ofList) [] := by
        rw [hr]
        exact .nil
      have hlhs := mt hl.eq_nil_iff.mp hleft
      rw [hread, ofSides_of_names hl hnil, if_neg (mt List.isEmpty_iff.mp hlhs)]
      rfl
  | ok hs hleft hright hl hr =>
      obtain ⟨before, after, hread, rfl, rfl⟩ := hs.exists_ofChars r
      have hlhs := mt hl.eq_nil_iff.mp hleft
      have hrhs := mt hr.eq_nil_iff.mp hright
      rw [hread, ofSides_of_names hl hr, if_neg (mt List.isEmpty_iff.mp hlhs),
        if_neg (mt List.isEmpty_iff.mp hrhs)]
      rfl

end Reading

/-- Reading ends as `Verdict` says, whatever the registry and the text, and the
characters between words are those with the property White_Space. -/
theorem read_eq_iff (r : Registry) (text : String) :
    (∀ result, read r text = result ↔ Verdict r text result) ∧
      ∀ c, isBlank c = true ↔ c.toNat ∈ whiteSpace := by
  refine ⟨fun result => ⟨?_, Verdict.read_eq⟩, fun _ => isBlank_iff⟩
  rintro rfl
  exact verdict_read r text

/-- No name on the left and two unknown ones on the right: of the three things that
are wrong with the rule, the first unknown name is reported. -/
theorem read_eq_iff_dashes :
    read dashes "->\u3000>b nope none" =
        .error ⟨"->\u3000>b nope none", .unresolved ⟨"nope"⟩⟩ ∧
      Verdict dashes "->\u3000>b nope none"
        (.error ⟨"->\u3000>b nope none", .unresolved ⟨"nope"⟩⟩) := by
  have hread : read dashes "->\u3000>b nope none" =
      .error ⟨"->\u3000>b nope none", .unresolved ⟨"nope"⟩⟩ := by
    decide
  exact ⟨hread, ((read_eq_iff dashes _).1 _).mp hread⟩

end Rule

end Lookahead
