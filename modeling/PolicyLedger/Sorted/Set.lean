import PolicyLedger.Sorted.Order

/-!
Finite sets that list their elements in order. Two sets with the same members are equal; that is
`SortedSet.ext`.
-/
namespace PolicyLedger

/-- A finite set kept as its strictly increasing list of elements, so equal sets are equal values. -/
structure SortedSet (κ : Type) [LT κ] where
  elements : List κ
  increasing : elements.Pairwise (· < ·)

namespace SortedSet

section Order
variable {κ : Type} [LT κ]

theorem eq_of_elements {s t : SortedSet κ} (same : s.elements = t.elements) : s = t := by
  cases s; cases t; cases same; rfl

instance [DecidableEq κ] : DecidableEq (SortedSet κ) := fun s t =>
  if same : s.elements = t.elements then isTrue (eq_of_elements same)
  else isFalse fun equal => same (equal ▸ rfl)

def empty : SortedSet κ := ⟨[], .nil⟩

instance : EmptyCollection (SortedSet κ) := ⟨empty⟩
instance : Inhabited (SortedSet κ) := ⟨empty⟩

def toList (s : SortedSet κ) : List κ := s.elements
def isEmpty (s : SortedSet κ) : Bool := s.elements.isEmpty
def size (s : SortedSet κ) : Nat := s.elements.length

instance : Membership κ (SortedSet κ) := ⟨fun s a => a ∈ s.elements⟩

@[simp] theorem not_mem_empty (a : κ) : a ∉ (∅ : SortedSet κ) := List.not_mem_nil

theorem mem_elements {s : SortedSet κ} {a : κ} : a ∈ s.elements ↔ a ∈ s := Iff.rfl

def contains [DecidableEq κ] (s : SortedSet κ) (a : κ) : Bool := decide (a ∈ s.elements)

def erase [DecidableEq κ] (s : SortedSet κ) (a : κ) : SortedSet κ :=
  ⟨s.elements.filter (· ≠ a), s.increasing.filter _⟩

theorem mem_erase [DecidableEq κ] {s : SortedSet κ} {a x : κ} : x ∈ s.erase a ↔ x ≠ a ∧ x ∈ s := by
  change x ∈ s.elements.filter _ ↔ _
  simp [List.mem_filter, mem_elements, and_comm]

theorem isEmpty_eq_false {s : SortedSet κ} : s.isEmpty = false ↔ ∃ a, a ∈ s :=
  List.isEmpty_eq_false_iff_exists_mem

theorem contains_iff [DecidableEq κ] {s : SortedSet κ} {a : κ} : s.contains a = true ↔ a ∈ s := by
  simp [contains, mem_elements]

end Order

section Insert
variable {κ : Type} [LT κ] [DecidableLT κ] [KeyOrder κ]

/-- The list with `a` put at its place; an equal element is kept once. -/
def place (a : κ) : List κ → List κ
  | [] => [a]
  | b :: rest => if a < b then a :: b :: rest else if b < a then b :: place a rest else b :: rest

private theorem mem_place {a x : κ} {l : List κ} : x ∈ place a l ↔ x = a ∨ x ∈ l := by
  induction l with
  | nil => simp [place]
  | cons b rest ih =>
    simp only [place]
    split
    · simp
    · split
      · simp only [List.mem_cons, ih]; grind
      · rename_i notBelow notAbove
        have equal : a = b := by
          rcases KeyOrder.total a b with below | equal | above
          · exact absurd below notBelow
          · exact equal
          · exact absurd above notAbove
        subst equal; simp

private theorem pairwise_place {a : κ} {l : List κ} (increasing : l.Pairwise (· < ·)) :
    (place a l).Pairwise (· < ·) := by
  induction l with
  | nil => simp [place]
  | cons b rest ih =>
    obtain ⟨least, others⟩ := List.pairwise_cons.mp increasing
    simp only [place]
    split
    · rename_i below
      refine List.pairwise_cons.mpr ⟨fun x member => ?_, increasing⟩
      rcases List.mem_cons.mp member with rfl | member
      · exact below
      · exact KeyOrder.trans below (least x member)
    · split
      · rename_i above
        refine List.pairwise_cons.mpr ⟨fun x member => ?_, ih others⟩
        rcases mem_place.mp member with rfl | member
        · exact above
        · exact least x member
      · exact increasing

def insert (s : SortedSet κ) (a : κ) : SortedSet κ := ⟨place a s.elements, pairwise_place s.increasing⟩

/-- The set of the listed elements, in whatever order and however often they are listed. -/
def ofList (items : List κ) : SortedSet κ := items.foldl insert ∅

@[simp] theorem mem_insert {s : SortedSet κ} {a x : κ} : x ∈ s.insert a ↔ x = a ∨ x ∈ s := mem_place

theorem contains_insert [DecidableEq κ] {s : SortedSet κ} {a x : κ} :
    (s.insert a).contains x = (decide (x = a) || s.contains x) := by
  rw [Bool.eq_iff_iff]
  simp [contains_iff]

theorem mem_ofList {items : List κ} {x : κ} : x ∈ ofList items ↔ x ∈ items := by
  suffices general : ∀ s : SortedSet κ, x ∈ items.foldl insert s ↔ x ∈ s ∨ x ∈ items by
    have whole := general ∅
    simp only [not_mem_empty, false_or] at whole
    exact whole
  induction items with
  | nil => simp
  | cons a rest ih => intro s; simp only [List.foldl_cons, ih, mem_insert, List.mem_cons]; grind

end Insert

section Extensional
variable {κ : Type} [LT κ] [KeyOrder κ]

private theorem list_eq_of_mem_iff : ∀ {l m : List κ}, l.Pairwise (· < ·) → m.Pairwise (· < ·) →
    (∀ x, x ∈ l ↔ x ∈ m) → l = m
  | [], [], _, _, _ => rfl
  | [], b :: _, _, _, same => absurd ((same b).mpr (.head _)) List.not_mem_nil
  | a :: _, [], _, _, same => absurd ((same a).mp (.head _)) List.not_mem_nil
  | a :: l, b :: m, left, right, same => by
    obtain ⟨leastLeft, leftRest⟩ := List.pairwise_cons.mp left
    obtain ⟨leastRight, rightRest⟩ := List.pairwise_cons.mp right
    have heads : a = b := by
      rcases List.mem_cons.mp ((same a).mp (.head _)) with equal | inner
      · exact equal
      · rcases List.mem_cons.mp ((same b).mpr (.head _)) with equal | outer
        · exact equal.symm
        · exact absurd (leastLeft b outer) (KeyOrder.asymm (leastRight a inner))
    subst heads
    have tails : l = m := list_eq_of_mem_iff leftRest rightRest fun x => by
      constructor
      · intro member
        rcases List.mem_cons.mp ((same x).mp (.tail _ member)) with equal | found
        · exact absurd equal.symm (KeyOrder.ne (leastLeft x member))
        · exact found
      · intro member
        rcases List.mem_cons.mp ((same x).mpr (.tail _ member)) with equal | found
        · exact absurd equal.symm (KeyOrder.ne (leastRight x member))
        · exact found
    rw [tails]

/-- Sets with the same elements are the same set. -/
theorem ext {s t : SortedSet κ} (same : ∀ x, x ∈ s ↔ x ∈ t) : s = t :=
  eq_of_elements (list_eq_of_mem_iff s.increasing t.increasing same)

theorem ofList_toList [DecidableLT κ] (s : SortedSet κ) : ofList s.toList = s :=
  ext fun _ => mem_ofList

end Extensional

end SortedSet
end PolicyLedger
