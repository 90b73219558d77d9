import PolicyLedger.Sorted.Order

/-!
Finite maps that list their entries in key order. Two maps with the same look-ups are equal; that is
`SortedMap.ext`.
-/
namespace PolicyLedger

/-- A finite map kept as its entries in strictly increasing key order, so equal maps are equal values. -/
structure SortedMap (κ ν : Type) [LT κ] where
  entries : List (κ × ν)
  increasing : entries.Pairwise fun a b => a.1 < b.1

namespace SortedMap

section Order
variable {κ ν : Type} [LT κ]

theorem eq_of_entries {m n : SortedMap κ ν} (same : m.entries = n.entries) : m = n := by
  cases m; cases n; cases same; rfl

instance [DecidableEq κ] [DecidableEq ν] : DecidableEq (SortedMap κ ν) := fun m n =>
  if same : m.entries = n.entries then isTrue (eq_of_entries same)
  else isFalse fun equal => same (equal ▸ rfl)

def empty : SortedMap κ ν := ⟨[], .nil⟩

instance : EmptyCollection (SortedMap κ ν) := ⟨empty⟩
instance : Inhabited (SortedMap κ ν) := ⟨empty⟩

def toList (m : SortedMap κ ν) : List (κ × ν) := m.entries
def keys (m : SortedMap κ ν) : List κ := m.entries.map (·.1)
def values (m : SortedMap κ ν) : List ν := m.entries.map (·.2)
def isEmpty (m : SortedMap κ ν) : Bool := m.entries.isEmpty
def size (m : SortedMap κ ν) : Nat := m.entries.length

/-- The value an entry list gives to a key. -/
def find [DecidableEq κ] (k : κ) : List (κ × ν) → Option ν
  | [] => none
  | (key, value) :: rest => if key = k then some value else find k rest

def get? [DecidableEq κ] (m : SortedMap κ ν) (k : κ) : Option ν := find k m.entries
def contains [DecidableEq κ] (m : SortedMap κ ν) (k : κ) : Bool := (m.get? k).isSome

def erase [DecidableEq κ] (m : SortedMap κ ν) (k : κ) : SortedMap κ ν :=
  ⟨m.entries.filter (·.1 ≠ k), m.increasing.filter _⟩

/-- Every entry with its value replaced, or left out where `f` gives none. -/
def filterMap {ω : Type} (f : κ → ν → Option ω) (m : SortedMap κ ν) : SortedMap κ ω where
  entries := m.entries.filterMap fun entry => (f entry.1 entry.2).map (entry.1, ·)
  increasing := by
    refine m.increasing.filterMap _ fun a b below x first y second => ?_
    obtain ⟨_, _, rfl⟩ := Option.map_eq_some_iff.mp first
    obtain ⟨_, _, rfl⟩ := Option.map_eq_some_iff.mp second
    exact below

end Order

section Insert
variable {κ ν : Type} [LT κ] [DecidableLT κ] [KeyOrder κ]

/-- The entries with `k` bound to `v`, in place of the value it had. -/
def place (k : κ) (v : ν) : List (κ × ν) → List (κ × ν)
  | [] => [(k, v)]
  | entry :: rest =>
    if k < entry.1 then (k, v) :: entry :: rest
    else if entry.1 < k then entry :: place k v rest
    else (k, v) :: rest

omit [KeyOrder κ] in
private theorem mem_place {k : κ} {v : ν} {x : κ × ν} {l : List (κ × ν)} :
    x ∈ place k v l → x = (k, v) ∨ x ∈ l := by
  induction l with
  | nil => simp [place]
  | cons entry rest ih => simp only [place]; split <;> (try split) <;> simp only [List.mem_cons] <;> grind

private theorem pairwise_place {k : κ} {v : ν} {l : List (κ × ν)} (increasing : l.Pairwise fun a b => a.1 < b.1) :
    (place k v l).Pairwise fun a b => a.1 < b.1 := by
  induction l with
  | nil => simp [place]
  | cons entry rest ih =>
    obtain ⟨least, others⟩ := List.pairwise_cons.mp increasing
    simp only [place]
    split
    · rename_i below
      refine List.pairwise_cons.mpr ⟨fun x member => ?_, increasing⟩
      rcases List.mem_cons.mp member with rfl | member
      · exact below
      · exact KeyOrder.trans below (least x member)
    · split
      · rename_i above
        refine List.pairwise_cons.mpr ⟨fun x member => ?_, ih others⟩
        rcases mem_place member with rfl | member
        · exact above
        · exact least x member
      · rename_i notBelow notAbove
        have equal : k = entry.1 := by
          rcases KeyOrder.total k entry.1 with below | equal | above
          · exact absurd below notBelow
          · exact equal
          · exact absurd above notAbove
        exact List.pairwise_cons.mpr ⟨fun x member => equal ▸ least x member, others⟩

def insert (m : SortedMap κ ν) (k : κ) (v : ν) : SortedMap κ ν :=
  ⟨place k v m.entries, pairwise_place m.increasing⟩

/-- The map of the listed entries; of entries with one key the last counts. -/
def ofList (items : List (κ × ν)) : SortedMap κ ν := items.foldl (fun m entry => m.insert entry.1 entry.2) ∅

/-- The value at `k` replaced by what `f` makes of it, or dropped. -/
def alter [DecidableEq κ] (m : SortedMap κ ν) (k : κ) (f : Option ν → Option ν) : SortedMap κ ν :=
  match f (m.get? k) with
  | some value => m.insert k value
  | none => m.erase k

end Insert

section Lookup
variable {κ ν : Type} [LT κ] [DecidableEq κ]

@[simp] theorem get?_empty (k : κ) : (∅ : SortedMap κ ν).get? k = none := rfl

omit [LT κ] in
private theorem find_filter {k x : κ} {l : List (κ × ν)} :
    find x (l.filter (·.1 ≠ k)) = if x = k then none else find x l := by
  induction l with
  | nil => simp [find]
  | cons entry rest ih =>
    by_cases same : entry.1 = k
    · simp only [List.filter_cons, same, ne_eq, not_true_eq_false, decide_false, Bool.false_eq_true,
        if_false, ih, find]
      grind
    · simp only [List.filter_cons, ne_eq, same, not_false_eq_true, decide_true, if_true, find, ih]
      grind

theorem get?_erase (m : SortedMap κ ν) (k x : κ) :
    (m.erase k).get? x = if x = k then none else m.get? x := find_filter

end Lookup

section InsertLookup
variable {κ ν : Type} [LT κ] [DecidableLT κ] [KeyOrder κ] [DecidableEq κ]

private theorem find_place {k x : κ} {v : ν} {l : List (κ × ν)} :
    find x (place k v l) = if x = k then some v else find x l := by
  induction l with
  | nil => simp [place, find, eq_comm]
  | cons entry rest ih =>
    simp only [place]
    split
    · simp only [find]; grind
    · split
      · rename_i above
        have differ := KeyOrder.ne above
        simp only [find, ih]; grind
      · rename_i notBelow notAbove
        have equal : k = entry.1 := by
          rcases KeyOrder.total k entry.1 with below | equal | above
          · exact absurd below notBelow
          · exact equal
          · exact absurd above notAbove
        simp only [find]; grind

theorem get?_insert (m : SortedMap κ ν) (k x : κ) (v : ν) :
    (m.insert k v).get? x = if x = k then some v else m.get? x := find_place

theorem get?_alter (m : SortedMap κ ν) (k x : κ) (f : Option ν → Option ν) :
    (m.alter k f).get? x = if x = k then f (m.get? k) else m.get? x := by
  unfold alter
  split
  · rename_i value result; simp only [get?_insert, result]
  · rename_i result; simp only [get?_erase, result]

end InsertLookup

section Extensional
variable {κ ν : Type} [LT κ] [KeyOrder κ] [DecidableEq κ]

private theorem find_none {k : κ} {l : List (κ × ν)} (above : ∀ x ∈ l, k < x.1) : find k l = none := by
  induction l with
  | nil => rfl
  | cons entry rest ih =>
    have differ := KeyOrder.ne (above entry (.head _))
    simp only [find, if_neg (Ne.symm differ)]
    exact ih fun x member => above x (.tail _ member)

private theorem entries_eq_of_find : ∀ {l m : List (κ × ν)},
    l.Pairwise (fun a b => a.1 < b.1) → m.Pairwise (fun a b => a.1 < b.1) →
    (∀ k, find k l = find k m) → l = m
  | [], [], _, _, _ => rfl
  | [], b :: _, _, _, same => by have := same b.1; simp [find] at this
  | a :: _, [], _, _, same => by have := same a.1; simp [find] at this
  | a :: l, b :: m, left, right, same => by
    obtain ⟨leastLeft, leftRest⟩ := List.pairwise_cons.mp left
    obtain ⟨leastRight, rightRest⟩ := List.pairwise_cons.mp right
    have keys : a.1 = b.1 := by
      rcases KeyOrder.total a.1 b.1 with below | equal | above
      · have absent : find a.1 (b :: m) = none := find_none fun x member => by
          rcases List.mem_cons.mp member with rfl | member
          · exact below
          · exact KeyOrder.trans below (leastRight x member)
        have bound := same a.1; rw [absent] at bound; simp [find] at bound
      · exact equal
      · have absent : find b.1 (a :: l) = none := find_none fun x member => by
          rcases List.mem_cons.mp member with rfl | member
          · exact above
          · exact KeyOrder.trans above (leastLeft x member)
        have bound := same b.1; rw [absent] at bound; simp [find] at bound
    have values : a.2 = b.2 := by have := same a.1; simpa [find, keys] using this
    have tails : l = m := entries_eq_of_find leftRest rightRest fun k => by
      by_cases head : k = a.1
      · rw [head, find_none leastLeft, keys, find_none leastRight]
      · have := same k
        simpa [find, Ne.symm head, keys ▸ Ne.symm head] using this
    rw [tails, Prod.ext keys values]

/-- Maps that give every key the same value are the same map. -/
theorem ext {m n : SortedMap κ ν} (same : ∀ k, m.get? k = n.get? k) : m = n :=
  eq_of_entries (entries_eq_of_find m.increasing n.increasing same)

theorem erase_of_get?_none {m : SortedMap κ ν} {k : κ} (absent : m.get? k = none) : m.erase k = m := by
  refine ext fun x => ?_
  rw [get?_erase]
  split
  · rename_i same
    rw [same, absent]
  · rfl

private theorem get?_foldl_insert [DecidableLT κ] {l : List (κ × ν)} (increasing : l.Pairwise fun a b => a.1 < b.1)
    (m : SortedMap κ ν) (k : κ) :
    (l.foldl (fun m entry => m.insert entry.1 entry.2) m).get? k = (find k l).or (m.get? k) := by
  induction l generalizing m with
  | nil => rfl
  | cons entry rest ih =>
    obtain ⟨least, others⟩ := List.pairwise_cons.mp increasing
    rw [List.foldl_cons, ih others, get?_insert, find]
    by_cases same : entry.1 = k
    · rw [if_pos same.symm, if_pos same, find_none fun x member => same ▸ least x member]
      rfl
    · rw [if_neg (Ne.symm same), if_neg same]

theorem ofList_toList [DecidableLT κ] (m : SortedMap κ ν) : ofList m.toList = m :=
  ext fun k => (get?_foldl_insert m.increasing ∅ k).trans (Option.or_none ..)

private theorem mem_iff_find {k : κ} {v : ν} {l : List (κ × ν)} (increasing : l.Pairwise fun a b => a.1 < b.1) :
    (k, v) ∈ l ↔ find k l = some v := by
  induction l with
  | nil => simp [find]
  | cons entry rest ih =>
    obtain ⟨least, others⟩ := List.pairwise_cons.mp increasing
    by_cases same : entry.1 = k
    · have absent : (k, v) ∉ rest := fun member => KeyOrder.ne (least _ member) same
      have whole : (k, v) = entry ↔ entry.2 = v := by
        rw [Prod.ext_iff]
        simp [same, eq_comm]
      simp [find, same, absent, whole]
    · have differ : (k, v) ≠ entry := fun equal => same (equal ▸ rfl)
      simp [find, same, differ, ih others]

/-- The entries of a map are the keys it has with the values it gives them. -/
theorem mem_toList {m : SortedMap κ ν} {k : κ} {v : ν} : (k, v) ∈ m.toList ↔ m.get? k = some v :=
  mem_iff_find m.increasing

theorem mem_keys {m : SortedMap κ ν} {k : κ} : k ∈ m.keys ↔ ∃ v, m.get? k = some v := by
  simp [keys, ← mem_toList, toList]

theorem mem_values {m : SortedMap κ ν} {v : ν} : v ∈ m.values ↔ ∃ k, m.get? k = some v := by
  simp [values, ← mem_toList, toList]

omit [DecidableEq κ] in
theorem nodup_keys (m : SortedMap κ ν) : m.keys.Nodup :=
  List.pairwise_map.mpr (m.increasing.imp fun below => KeyOrder.ne below)

theorem isEmpty_eq_false {m : SortedMap κ ν} : m.isEmpty = false ↔ ∃ k v, m.get? k = some v := by
  simp only [← mem_toList, toList, isEmpty, List.isEmpty_eq_false_iff_exists_mem, Prod.exists]

theorem get?_filterMap {ω : Type} (f : κ → ν → Option ω) (m : SortedMap κ ν) (k : κ) :
    (m.filterMap f).get? k = (m.get? k).bind (f k) := by
  have step (w : ω) : (m.filterMap f).get? k = some w ↔ (m.get? k).bind (f k) = some w := by
    rw [← mem_toList, Option.bind_eq_some_iff]
    simp only [← mem_toList, toList, filterMap, List.mem_filterMap, Option.map_eq_some_iff, Prod.exists,
      Prod.mk.injEq]
    constructor
    · rintro ⟨key, v, member, _, made, rfl, rfl⟩
      exact ⟨v, member, made⟩
    · rintro ⟨v, member, made⟩
      exact ⟨k, v, member, w, made, rfl, rfl⟩
  exact Option.ext step

end Extensional

end SortedMap
end PolicyLedger
