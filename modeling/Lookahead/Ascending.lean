/-!
# Ascending lists

A list ascends by a key when the keys of its entries strictly increase, so it
holds at most one entry for a key and two such lists with the same entries are
equal. Finite sets and finite maps are kept in this form. `place` adds an
entry, or changes the entry whose key is already there, and `merge` joins two
lists.
-/
namespace Lookahead.Ascending

variable {α κ : Type} [LT κ] [DecidableLT κ]

/-- Put `a` into a list that ascends by `key`. When an entry `b` already holds
the key of `a`, that entry becomes `combine b` and `a` itself is dropped. -/
def place (key : α → κ) (a : α) (combine : α → α) : List α → List α
  | [] => [a]
  | b :: l =>
      if key a < key b then a :: b :: l
      else if key b < key a then b :: place key a combine l
      else combine b :: l

/-- Put `x` where it belongs in a list and leave what comes after it to `rest`.
An entry with the key of `x` is dropped. -/
def weave (key : α → κ) (x : α) (rest : List α → List α) : List α → List α
  | [] => x :: rest []
  | y :: l =>
      if key x < key y then x :: rest (y :: l)
      else if key y < key x then y :: weave key x rest l
      else x :: rest l

/-- The entries of two ascending lists. For a key in both, the left entry stays. -/
def merge (key : α → κ) : List α → List α → List α
  | [], l => l
  | x :: k, l => weave key x (merge key k) l

/-- The distinct elements of a list in ascending order. -/
def distinct (l : List κ) : List κ :=
  l.foldr (fun a found => place (fun k => k) a (fun b => b) found) []

@[simp] theorem distinct_nil : distinct ([] : List κ) = [] := rfl

@[simp] theorem distinct_cons (a : κ) (l : List κ) :
    distinct (a :: l) = place (fun k => k) a (fun b => b) (distinct l) := rfl

/-- Every entry of the new list is the placed one, an old one, or a combined one. -/
theorem mem_place {key : α → κ} {a x : α} {combine : α → α} {l : List α}
    (h : x ∈ place key a combine l) : x = a ∨ x ∈ l ∨ ∃ b ∈ l, x = combine b := by
  induction l with
  | nil => simpa [place] using h
  | cons b l ih =>
      simp only [place] at h
      split at h
      · simpa using Or.imp_right Or.inl (List.mem_cons.mp h)
      · split at h
        · rcases List.mem_cons.mp h with rfl | h
          · simp
          · rcases ih h with rfl | h | ⟨c, hc, rfl⟩
            · simp
            · simp [h]
            · exact .inr (.inr ⟨c, by simp [hc], rfl⟩)
        · rcases List.mem_cons.mp h with rfl | h
          · exact .inr (.inr ⟨b, by simp, rfl⟩)
          · simp [h]

/-- Placing keeps a list ascending as long as combining keeps the key. -/
theorem pairwise_place [Trans (α := κ) (· < ·) (· < ·) (· < ·)]
    (key : α → κ) (a : α) (combine : α → α) (hm : ∀ b, key (combine b) = key b)
    {l : List α} (h : l.Pairwise (key · < key ·)) :
    (place key a combine l).Pairwise (key · < key ·) := by
  induction l with
  | nil => simp [place]
  | cons b l ih =>
      obtain ⟨hb, hl⟩ := List.pairwise_cons.mp h
      simp only [place]
      split
      next hab =>
        refine List.pairwise_cons.mpr ⟨fun c hc => ?_, h⟩
        rcases List.mem_cons.mp hc with rfl | hc
        · exact hab
        · exact Std.lt_trans hab (hb c hc)
      next =>
        split
        next hba =>
          refine List.pairwise_cons.mpr ⟨fun c hc => ?_, ih hl⟩
          rcases mem_place hc with rfl | hc | ⟨d, hd, rfl⟩
          · exact hba
          · exact hb c hc
          · exact hm d ▸ hb d hd
        next =>
          exact List.pairwise_cons.mpr ⟨fun c hc => (hm b).symm ▸ hb c hc, hl⟩

/-- The keys after placing `a` are the old keys and the key of `a`. -/
theorem mem_keys_place [Std.Trichotomous (α := κ) (· < ·)]
    (key : α → κ) (a : α) (combine : α → α) (hm : ∀ b, key (combine b) = key b)
    {l : List α} {k : κ} :
    k ∈ (place key a combine l).map key ↔ k = key a ∨ k ∈ l.map key := by
  induction l with
  | nil => simp [place]
  | cons b l ih =>
      simp only [place]
      split
      · simp
      · split
        · rw [List.map_cons, List.mem_cons, ih, List.map_cons, List.mem_cons]
          exact or_left_comm
        next hab hba =>
          have he : key a = key b := Std.Trichotomous.trichotomous _ _ hab hba
          simp [hm, he]

/-- What a key finds after placing `a`. -/
theorem find?_place [Trans (α := κ) (· < ·) (· < ·) (· < ·)] [Std.Irrefl (α := κ) (· < ·)]
    [Std.Trichotomous (α := κ) (· < ·)] [DecidableEq κ]
    (key : α → κ) (a : α) (combine : α → α) (hm : ∀ b, key (combine b) = key b)
    {l : List α} (h : l.Pairwise (key · < key ·)) (k : κ) :
    (place key a combine l).find? (key · = k) =
      if key a = k then some ((l.find? (key · = k)).elim a combine)
      else l.find? (key · = k) := by
  induction l with
  | nil => by_cases hk : key a = k <;> simp [place, hk]
  | cons b l ih =>
      obtain ⟨hb, hl⟩ := List.pairwise_cons.mp h
      by_cases hab : key a < key b
      · rw [place, if_pos hab]
        by_cases hk : key a = k
        · have hnone : (b :: l).find? (key · = k) = none := by
            simp only [List.find?_eq_none, decide_eq_true_eq]
            intro c hc he
            have hlt : key a < key c := by
              rcases List.mem_cons.mp hc with rfl | hc
              · exact hab
              · exact Std.lt_trans hab (hb c hc)
            rw [he, ← hk] at hlt
            exact Std.lt_irrefl hlt
          simp [hk, hnone]
        · simp [hk]
      · by_cases hba : key b < key a
        · rw [place, if_neg hab, if_pos hba]
          by_cases hbk : key b = k
          · have hk : key a ≠ k := by
              intro he
              rw [hbk, he] at hba
              exact Std.lt_irrefl hba
            simp [hbk, hk]
          · simp [hbk, ih hl]
        · have he : key a = key b := Std.Trichotomous.trichotomous _ _ hab hba
          rw [place, if_neg hab, if_neg hba]
          by_cases hbk : key b = k <;> simp [he, hm, hbk]

theorem mem_weave {key : α → κ} {x z : α} {k : List α} {f : List α → List α} {l : List α}
    (hf : ∀ {l}, z ∈ f l → z ∈ k ∨ z ∈ l) (h : z ∈ weave key x f l) : z ∈ x :: k ∨ z ∈ l := by
  induction l with
  | nil =>
      rcases List.mem_cons.mp h with rfl | h
      · simp
      · simpa using Or.inr (hf h)
  | cons y l ih =>
      simp only [weave] at h
      split at h
      · rcases List.mem_cons.mp h with rfl | h
        · simp
        · exact Or.imp_left (List.mem_cons_of_mem x) (hf h)
      · split at h
        · rcases List.mem_cons.mp h with rfl | h
          · simp
          · exact Or.imp_right (List.mem_cons_of_mem y) (ih h)
        · rcases List.mem_cons.mp h with rfl | h
          · simp
          · exact Or.imp (List.mem_cons_of_mem x) (List.mem_cons_of_mem y) (hf h)

/-- Every entry of the joined list comes from one of the two. -/
theorem mem_merge {key : α → κ} {z : α} {k l : List α} (h : z ∈ merge key k l) :
    z ∈ k ∨ z ∈ l := by
  induction k generalizing l with
  | nil => exact .inr h
  | cons x k ih => exact mem_weave ih h

theorem pairwise_merge [Trans (α := κ) (· < ·) (· < ·) (· < ·)]
    [Std.Trichotomous (α := κ) (· < ·)] (key : α → κ) {k l : List α}
    (hk : k.Pairwise (key · < key ·)) (hl : l.Pairwise (key · < key ·)) :
    (merge key k l).Pairwise (key · < key ·) := by
  induction k generalizing l with
  | nil => exact hl
  | cons x k ih =>
      obtain ⟨hx, hk⟩ := List.pairwise_cons.mp hk
      simp only [merge]
      induction l with
      | nil =>
          refine List.pairwise_cons.mpr ⟨fun z hz => ?_, ih hk hl⟩
          exact hx z (by simpa using mem_merge hz)
      | cons y l ihl =>
          obtain ⟨hy, hl'⟩ := List.pairwise_cons.mp hl
          simp only [weave]
          split
          next hxy =>
            refine List.pairwise_cons.mpr ⟨fun z hz => ?_, ih hk hl⟩
            rcases mem_merge hz with hz | hz
            · exact hx z hz
            · rcases List.mem_cons.mp hz with rfl | hz
              · exact hxy
              · exact Std.lt_trans hxy (hy z hz)
          next hxy =>
            split
            next hyx =>
              refine List.pairwise_cons.mpr ⟨fun z hz => ?_, ihl hl'⟩
              rcases mem_weave mem_merge hz with hz | hz
              · rcases List.mem_cons.mp hz with rfl | hz
                · exact hyx
                · exact Std.lt_trans hyx (hx z hz)
              · exact hy z hz
            next hyx =>
              have he : key x = key y := Std.Trichotomous.trichotomous _ _ hxy hyx
              refine List.pairwise_cons.mpr ⟨fun z hz => ?_, ih hk hl'⟩
              rcases mem_merge hz with hz | hz
              · exact hx z hz
              · exact he ▸ hy z hz

theorem find?_weave [Std.Irrefl (α := κ) (· < ·)] [Trans (α := κ) (· < ·) (· < ·) (· < ·)]
    [Std.Trichotomous (α := κ) (· < ·)] [DecidableEq κ] (key : α → κ) {x : α} {k : List α}
    {f : List α → List α} (hx : ∀ z ∈ k, key x < key z) (c : κ)
    (hf : ∀ l, (f l).find? (key · = c) = (k.find? (key · = c)).or (l.find? (key · = c)))
    (l : List α) :
    (weave key x f l).find? (key · = c) =
      ((x :: k).find? (key · = c)).or (l.find? (key · = c)) := by
  induction l with
  | nil => by_cases hxc : key x = c <;> simp [weave, hf, hxc]
  | cons y l ih =>
      simp only [weave]
      split
      next => by_cases hxc : key x = c <;> simp [hf, hxc]
      next hxy =>
        split
        next hyx =>
          by_cases hyc : key y = c
          · have hnone : (x :: k).find? (key · = c) = none := by
              simp only [List.find?_eq_none, decide_eq_true_eq]
              intro z hz he
              have hlt : key y < key z := by
                rcases List.mem_cons.mp hz with rfl | hz
                · exact hyx
                · exact Std.lt_trans hyx (hx z hz)
              rw [he, ← hyc] at hlt
              exact Std.lt_irrefl hlt
            rw [hnone]
            simp [hyc]
          · have hskip (l : List α) : (y :: l).find? (key · = c) = l.find? (key · = c) :=
              List.find?_cons_of_neg (by simpa using hyc)
            rw [hskip, ih, hskip]
        next hyx =>
          have he : key x = key y := Std.Trichotomous.trichotomous _ _ hxy hyx
          by_cases hxc : key x = c
          · simp [hxc]
          · simp [hf, hxc, ← he]

/-- A key finds its entry in the left list, and in the right one only when the left one
has none. -/
theorem find?_merge [Std.Irrefl (α := κ) (· < ·)] [Trans (α := κ) (· < ·) (· < ·) (· < ·)]
    [Std.Trichotomous (α := κ) (· < ·)] [DecidableEq κ] (key : α → κ) {k : List α}
    (hk : k.Pairwise (key · < key ·)) (l : List α) (c : κ) :
    (merge key k l).find? (key · = c) = (k.find? (key · = c)).or (l.find? (key · = c)) := by
  induction k generalizing l with
  | nil => rfl
  | cons x k ih =>
      obtain ⟨hx, hk⟩ := List.pairwise_cons.mp hk
      exact find?_weave key hx c (ih hk) l

/-- The keys of the joined list are those of the two. -/
theorem mem_keys_merge [Std.Trichotomous (α := κ) (· < ·)] (key : α → κ) {k l : List α} {c : κ} :
    c ∈ (merge key k l).map key ↔ c ∈ k.map key ∨ c ∈ l.map key := by
  induction k generalizing l with
  | nil => simp [merge]
  | cons x k ih =>
      simp only [merge]
      induction l with
      | nil => simp only [weave, List.map_cons, List.mem_cons, ih]; simp
      | cons y l ihl =>
          simp only [weave]
          split
          · simp only [List.map_cons, List.mem_cons, ih, or_assoc]
          next hxy =>
            split
            · simp only [List.map_cons, List.mem_cons, ihl]
              exact or_left_comm
            next hyx =>
              have he : key x = key y := Std.Trichotomous.trichotomous _ _ hxy hyx
              simp only [List.map_cons, List.mem_cons, ih, he]
              grind

theorem pairwise_distinct [Trans (α := κ) (· < ·) (· < ·) (· < ·)] (l : List κ) :
    (distinct l).Pairwise (· < ·) := by
  induction l with
  | nil => simp
  | cons a l ih => simpa using pairwise_place (fun k : κ => k) a (fun b => b) (fun _ => rfl) ih

@[simp] theorem mem_distinct [Std.Trichotomous (α := κ) (· < ·)] {a : κ} {l : List κ} :
    a ∈ distinct l ↔ a ∈ l := by
  induction l with
  | nil => simp
  | cons b l ih =>
      simpa [ih] using
        mem_keys_place (fun k : κ => k) b (fun b => b) (fun _ => rfl) (l := distinct l) (k := a)

end Lookahead.Ascending
