import Tendril.Mesh.Bounds
import Tendril.Proofs.Double.Order

/-!
# Tight boxes

The box of a mesh reaches exactly as far as its points do. Each side of it is found by going through
one coordinate of all points and keeping the one that stands first, in the order of the numbers or
against it, where what is no number stands behind all others. So a side is the extreme number of
that coordinate, whatever the order of the points, and joining meshes joins their boxes.
-/

namespace Tendril

open Scalar

/-! ## What stands first -/

section Pick

variable {β κ : Type} [LinearOrder κ] (key : β → κ)

/-- The one of two items that stands first by a key, the former if they stand alike. -/
def pick (a b : β) : β := if key b < key a then b else a

instance associative_pick : Std.Associative (pick key) where
  assoc a b c := by
    by_cases second : key b < key a
    · by_cases third : key c < key b
      · simp [pick, second, third, third.trans second]
      · simp [pick, second, third]
    · by_cases third : key c < key b
      · simp [pick, second, third]
      · have first : ¬ key c < key a := fun ahead =>
          third (ahead.trans_le (not_lt.mp second))
        simp [pick, second, third, first]

/-- Picking one after the other comes to the first of all. -/
theorem argmin_eq_foldl_pick (first : β) (rest : List β) :
    (first :: rest).argmin key = some (rest.foldl (pick key) first) := by
  show rest.foldl (List.argAux fun b c => key b < key c) (some first) = _
  induction rest generalizing first with
  | nil => rfl
  | cons next rest ih =>
      rw [List.foldl_cons, List.foldl_cons, ← ih]
      congr 1
      unfold pick
      exact (apply_ite some _ _ _).symm

end Pick

/-- Where a double stands when numbers are put in order: what is no number stands last. -/
def standing (toward : Int → Int) (x : Float) : WithTop Int :=
  if x.isNaN then ⊤ else (toward (Double.rank x) : Int)

/-- Up the numbers. -/
def upward (rank : Int) : Int := rank

/-- Down the numbers. -/
def downward (rank : Int) : Int := -rank

section Standing

variable {toward : Int → Int} {a b : Float}

theorem standing_of_number (number : a.isNaN = false) :
    standing toward a = (toward (Double.rank a) : Int) := by
  rw [standing, if_neg (ne_true_of_eq_false number)]

theorem standing_of_isNaN (none : a.isNaN = true) : standing toward a = ⊤ := if_pos none

theorem standing_lt_standing (left : a.isNaN = false) (right : b.isNaN = false) :
    standing toward a < standing toward b ↔ toward (Double.rank a) < toward (Double.rank b) := by
  rw [standing_of_number left, standing_of_number right, WithTop.coe_lt_coe]

/-- What stands no farther back than a number is a number. -/
theorem standing_le_iff (number : b.isNaN = false) :
    standing toward a ≤ standing toward b ↔
      a.isNaN = false ∧ toward (Double.rank a) ≤ toward (Double.rank b) := by
  rw [standing_of_number number]
  cases none : a.isNaN with
  | true =>
      rw [standing_of_isNaN none, top_le_iff]
      exact iff_of_false WithTop.coe_ne_top (fun both => Bool.noConfusion both.1)
  | false => rw [standing_of_number none, WithTop.coe_le_coe, and_iff_right rfl]

/-- A choice between two items that prefers a number to what is none, and of two numbers takes the
latter only if it stands before the former, picks what stands first. -/
theorem eq_pick {before : Float → Float → Bool} {choose : Float → Float → Float}
    (chosen : ∀ a b, choose a b =
      if isNaN a then b else if isNaN b then a else if before b a then b else a)
    (asked : ∀ a b : Float, a.isNaN = false → b.isNaN = false →
      (before b a = true ↔ toward (Double.rank b) < toward (Double.rank a))) :
    choose = pick (standing toward) := by
  funext a b
  rw [chosen, Double.isNaN_eq, Double.isNaN_eq, pick]
  cases left : a.isNaN with
  | true =>
      rw [if_pos rfl, standing_of_isNaN left]
      cases right : b.isNaN with
      | true => rw [Double.eq_of_isNaN left right, ite_self]
      | false => rw [standing_of_number right, if_pos (WithTop.coe_lt_top _)]
  | false =>
      rw [if_neg Bool.false_ne_true]
      cases right : b.isNaN with
      | true => rw [if_pos rfl, standing_of_isNaN right, if_neg not_top_lt]
      | false =>
          rw [if_neg Bool.false_ne_true]
          exact if_congr ((asked a b left right).trans (standing_lt_standing right left).symm)
            rfl rfl

end Standing

theorem least_eq_pick : (least : Float → Float → Float) = pick (standing upward) := by
  refine eq_pick (fun _ _ => rfl) fun a b left right => ?_
  show decide (b < a) = true ↔ Double.rank b < Double.rank a
  rw [decide_eq_true_iff, Double.lt_iff, and_iff_right right, and_iff_right left]

theorem greatest_eq_pick : (greatest : Float → Float → Float) = pick (standing downward) := by
  refine eq_pick (fun _ _ => rfl) fun a b left right => ?_
  show decide (a < b) = true ↔ -Double.rank b < -Double.rank a
  rw [decide_eq_true_iff, Double.lt_iff, and_iff_right left, and_iff_right right,
    Int.neg_lt_neg_iff]

/-! ## The extreme number -/

/-- A number among values that comes before all other numbers of them; no number only if there is
none among them. -/
structure Extreme (before : Float → Float → Prop) (values : List Float) (x : Float) : Prop where
  mem : x ∈ values
  first : ∀ v ∈ values, v.isNaN = false → before x v
  isNaN_iff : x.isNaN = true ↔ ∀ v ∈ values, v.isNaN = true

/-- Equal but for the sign of zero. -/
def Alike (a b : Float) : Prop := a = b ∨ (a == 0) = true ∧ (b == 0) = true

/-- An order of the numbers that is the order of the integers they stand for. -/
def Ordered (toward : Int → Int) (before : Float → Float → Prop) : Prop :=
  ∀ a b : Float, before a b ↔
    a.isNaN = false ∧ b.isNaN = false ∧ toward (Double.rank a) ≤ toward (Double.rank b)

theorem ordered_le : Ordered upward (· ≤ ·) := fun _ _ => Double.le_iff

theorem ordered_ge : Ordered downward (· ≥ ·) := fun a b => by
  show b ≤ a ↔ _ ∧ _ ∧ -Double.rank a ≤ -Double.rank b
  rw [Double.le_iff, Int.neg_le_neg_iff]
  exact and_left_comm

namespace Extreme

variable {toward : Int → Int} {before : Float → Float → Prop}

theorem foldl_pick (ordered : Ordered toward before) (first : Float) (rest : List Float) :
    Extreme before (first :: rest) (rest.foldl (pick (standing toward)) first) := by
  have picked := argmin_eq_foldl_pick (standing toward) first rest
  have ahead : ∀ v ∈ first :: rest, v.isNaN = false →
      before (rest.foldl (pick (standing toward)) first) v := by
    intro v member number
    have behind := List.le_of_mem_argmin member picked
    obtain ⟨some, le⟩ := (standing_le_iff number).mp behind
    exact (ordered _ v).mpr ⟨some, number, le⟩
  have mem := List.argmin_mem picked
  refine ⟨mem, ahead, ?_, fun none => none _ mem⟩
  intro none v member
  by_contra number
  have some := ((ordered _ v).mp (ahead v member (Bool.eq_false_iff.mpr number))).1
  exact absurd none (Bool.eq_false_iff.mp some)

/-- There is one extreme number but for the sign of zero, and it is the same for lists with the
same members. -/
theorem alike (ordered : Ordered toward before) (injective : toward.Injective)
    {xs ys : List Float} {x y : Float} (left : Extreme before xs x) (right : Extreme before ys y)
    (same : ∀ v, v ∈ xs ↔ v ∈ ys) : Alike x y := by
  have both : x.isNaN = true ↔ y.isNaN = true := by
    rw [left.isNaN_iff, right.isNaN_iff]
    exact forall_congr' fun v => imp_congr_left (same v)
  cases none : x.isNaN with
  | true => exact .inl (Double.eq_of_isNaN none (both.mp none))
  | false =>
      have number : y.isNaN = false := by
        rw [Bool.eq_false_iff, ne_eq, ← both, none]
        exact Bool.false_ne_true
      have below := ((ordered x y).mp (left.first y ((same y).mpr right.mem) number)).2.2
      have above := ((ordered y x).mp (right.first x ((same x).mp left.mem) none)).2.2
      have rank : Double.rank x = Double.rank y := injective (Int.le_antisymm below above)
      have equal : (x == y) = true := Double.beq_iff.mpr ⟨none, number, rank⟩
      obtain ⟨_, _, rfl | ⟨rfl, rfl⟩ | ⟨rfl, rfl⟩⟩ := Float.beq_iff_ne_nan_and_eq.mp equal
      · exact .inl rfl
      · exact .inr ⟨by decide, by decide⟩
      · exact .inr ⟨by decide, by decide⟩

end Extreme

/-! ## Boxes -/

namespace Vec3

/-- The three coordinates of a point. -/
def coordinates {α : Type} : List (Vec3 α → α) := [Vec3.x, Vec3.y, Vec3.z]

variable {c : Vec3 Float → Float}

theorem coordinate_least (coordinate : c ∈ coordinates) (p q : Vec3 Float) :
    c (p.least q) = Scalar.least (c p) (c q) := by
  simp only [coordinates, List.mem_cons, List.not_mem_nil, or_false] at coordinate
  rcases coordinate with rfl | rfl | rfl <;> rfl

theorem coordinate_greatest (coordinate : c ∈ coordinates) (p q : Vec3 Float) :
    c (p.greatest q) = Scalar.greatest (c p) (c q) := by
  simp only [coordinates, List.mem_cons, List.not_mem_nil, or_false] at coordinate
  rcases coordinate with rfl | rfl | rfl <;> rfl

end Vec3

namespace Bounds

/-- The box reaches as far as the points do, and no farther. -/
structure Tight (b : Bounds Float) (points : List (Vec3 Float)) : Prop where
  low : ∀ c ∈ Vec3.coordinates, Extreme (· ≤ ·) (points.map c) (c b.low)
  high : ∀ c ∈ Vec3.coordinates, Extreme (· ≥ ·) (points.map c) (c b.high)

/-- Equal but for the signs of zeros. -/
def Alike (a b : Bounds Float) : Prop :=
  ∀ c ∈ Vec3.coordinates, Tendril.Alike (c a.low) (c b.low) ∧ Tendril.Alike (c a.high) (c b.high)

/-- The least box that holds two boxes. -/
def hull (a b : Bounds Float) : Bounds Float := ⟨a.low.least b.low, a.high.greatest b.high⟩

theorem hull_assoc (a b c : Bounds Float) : (a.hull b).hull c = a.hull (b.hull c) := by
  simp only [hull, Vec3.least, Vec3.greatest, least_eq_pick, greatest_eq_pick,
    (associative_pick _).assoc]

/-- A box that holds two boxes grows as the latter of them does. -/
theorem foldl_cover_hull (a b : Bounds Float) (points : List (Vec3 Float)) :
    points.foldl cover (a.hull b) = a.hull (points.foldl cover b) := by
  induction points generalizing b with
  | nil => rfl
  | cons p rest ih =>
      have grown : (a.hull b).cover p = a.hull (b.cover p) := hull_assoc a b (point p)
      rw [List.foldl_cons, List.foldl_cons, grown, ih]

theorem low_foldl_cover {c : Vec3 Float → Float} (coordinate : c ∈ Vec3.coordinates)
    (b : Bounds Float) (points : List (Vec3 Float)) :
    c (points.foldl cover b).low = (points.map c).foldl Scalar.least (c b.low) := by
  induction points generalizing b with
  | nil => rfl
  | cons p rest ih =>
      have next : c (b.cover p).low = Scalar.least (c b.low) (c p) :=
        Vec3.coordinate_least coordinate b.low p
      rw [List.foldl_cons, ih, next, List.map_cons, List.foldl_cons]

theorem high_foldl_cover {c : Vec3 Float → Float} (coordinate : c ∈ Vec3.coordinates)
    (b : Bounds Float) (points : List (Vec3 Float)) :
    c (points.foldl cover b).high = (points.map c).foldl Scalar.greatest (c b.high) := by
  induction points generalizing b with
  | nil => rfl
  | cons p rest ih =>
      have next : c (b.cover p).high = Scalar.greatest (c b.high) (c p) :=
        Vec3.coordinate_greatest coordinate b.high p
      rw [List.foldl_cons, ih, next, List.map_cons, List.foldl_cons]

theorem tight_ofPoints (first : Vec3 Float) (rest : List (Vec3 Float)) :
    (ofPoints (first :: rest)).Tight (first :: rest) where
  low c coordinate := by
    rw [ofPoints, low_foldl_cover coordinate, least_eq_pick]
    exact Extreme.foldl_pick ordered_le (c first) (rest.map c)
  high c coordinate := by
    rw [ofPoints, high_foldl_cover coordinate, greatest_eq_pick]
    exact Extreme.foldl_pick ordered_ge (c first) (rest.map c)

/-- Boxes of the same points, in whatever order, are alike. -/
theorem Tight.alike {a b : Bounds Float} {ps qs : List (Vec3 Float)} (left : a.Tight ps)
    (right : b.Tight qs) (same : ps.Perm qs) : a.Alike b := by
  intro c coordinate
  have values : ∀ v, v ∈ ps.map c ↔ v ∈ qs.map c := fun _ => (same.map c).mem_iff
  exact ⟨Extreme.alike ordered_le (fun _ _ => id) (left.low c coordinate)
      (right.low c coordinate) values,
    Extreme.alike ordered_ge (fun _ _ => Int.neg_inj.mp) (left.high c coordinate)
      (right.high c coordinate) values⟩

end Bounds

namespace Mesh

theorem isEmpty_eq_false_iff (m : Mesh Float) :
    m.isEmpty = false ↔ ∃ first rest, m.vertices.toList = first :: rest := by
  rw [isEmpty, Array.isEmpty_eq_false_iff, ← List.ne_nil_iff_exists_cons, ne_eq, ne_eq,
    Array.toList_eq_nil_iff]

theorem tight_bounds {m : Mesh Float} (some : m.isEmpty = false) :
    m.bounds.Tight m.vertices.toList := by
  obtain ⟨first, rest, points⟩ := m.isEmpty_eq_false_iff.mp some
  rw [bounds, points]
  exact Bounds.tight_ofPoints first rest

theorem bounds_merge {m n : Mesh Float} (some : m.isEmpty = false) (other : n.isEmpty = false) :
    (m.merge n).bounds = m.bounds.hull n.bounds := by
  obtain ⟨first, rest, points⟩ := m.isEmpty_eq_false_iff.mp some
  obtain ⟨next, onward, points'⟩ := n.isEmpty_eq_false_iff.mp other
  have joined : (m.merge n).vertices.toList = first :: rest ++ next :: onward := by
    rw [merge, Array.toList_append, points, points']
  calc (m.merge n).bounds
      = onward.foldl Bounds.cover ((rest.foldl Bounds.cover (.point first)).cover next) := by
        rw [bounds, joined, List.cons_append, Bounds.ofPoints, List.foldl_append, List.foldl_cons]
    _ = (rest.foldl Bounds.cover (.point first)).hull (onward.foldl Bounds.cover (.point next)) :=
        Bounds.foldl_cover_hull _ (.point next) onward
    _ = m.bounds.hull n.bounds := by
        rw [bounds, bounds, points, points', Bounds.ofPoints, Bounds.ofPoints]

theorem merge_vertices_of_isEmpty (m : Mesh Float) {n : Mesh Float} (none : n.isEmpty = true) :
    (m.merge n).vertices = m.vertices ∧ (n.merge m).vertices = m.vertices := by
  have nothing : n.vertices = #[] := Array.isEmpty_iff.mp none
  exact ⟨by rw [merge, nothing, Array.append_empty], by rw [merge, nothing, Array.empty_append]⟩

/-- The box of a mesh reaches as far as its points do and is the same for any order of them; joined
meshes have the hull of their boxes, and a mesh without points counts for nothing. -/
theorem bounds_extreme (m : Mesh Float) :
    (m.isEmpty = false →
      m.bounds.Tight m.vertices.toList ∧
      (∀ n : Mesh Float, n.vertices.toList.Perm m.vertices.toList → n.bounds.Alike m.bounds) ∧
      ∀ n : Mesh Float, n.isEmpty = false → (m.merge n).bounds = m.bounds.hull n.bounds) ∧
    ∀ n : Mesh Float, n.isEmpty = true →
      (m.merge n).bounds = m.bounds ∧ (n.merge m).bounds = m.bounds := by
  refine ⟨fun some => ⟨tight_bounds some, ?_, fun n other => bounds_merge some other⟩, ?_⟩
  · intro n same
    have other : n.isEmpty = false := by
      rw [isEmpty_eq_false_iff, ← List.ne_nil_iff_exists_cons] at some ⊢
      exact fun none => some (List.nil_perm.mp (none ▸ same))
    exact (tight_bounds other).alike (tight_bounds some) same
  · intro n none
    obtain ⟨behind, ahead⟩ := merge_vertices_of_isEmpty m none
    exact ⟨by rw [bounds, behind, bounds], by rw [bounds, ahead, bounds]⟩

/-- Three buoys of which not every coordinate is known, nor every distance finite. -/
def buoys : Mesh Float := ⟨#[⟨0 / 0, -0.0, 1 / 0⟩, ⟨2, 0, 0 / 0⟩, ⟨-3, 0 / 0, 0 / 0⟩], #[], #[]⟩

/-- The buoys from the last to the first. -/
def buoysBack : Mesh Float := ⟨buoys.vertices.reverse, #[], #[]⟩

/-- A raft of which one coordinate is known. -/
def raft : Mesh Float := ⟨#[⟨0 / 0, 5, 0 / 0⟩], #[], #[]⟩

theorem buoys_bounds_extreme :
    buoys.bounds.Tight buoys.vertices.toList ∧
    buoys.bounds = ⟨⟨-3, -0.0, 1 / 0⟩, ⟨2, -0.0, 1 / 0⟩⟩ ∧
    buoysBack.bounds.Alike buoys.bounds ∧
    buoysBack.bounds = ⟨⟨-3, 0, 1 / 0⟩, ⟨2, 0, 1 / 0⟩⟩ ∧
    (buoys.merge raft).bounds = buoys.bounds.hull raft.bounds ∧
    (buoys.merge .empty).bounds = buoys.bounds ∧
    (Mesh.empty.merge buoys).bounds = buoys.bounds := by
  obtain ⟨some, none⟩ := bounds_extreme buoys
  obtain ⟨tight, anyOrder, joined⟩ := some (by decide +kernel)
  obtain ⟨behind, ahead⟩ := none .empty rfl
  have turned : buoysBack.vertices.toList.Perm buoys.vertices.toList := by
    rw [buoysBack, Array.toList_reverse]
    exact List.reverse_perm _
  refine ⟨tight, ?_, anyOrder buoysBack turned, ?_, joined raft (by decide +kernel), behind, ahead⟩
  · rw [Bounds.mk.injEq]
    decide +kernel
  · rw [Bounds.mk.injEq]
    decide +kernel

end Mesh

end Tendril
