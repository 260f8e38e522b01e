import Mathlib.Data.List.Nodup
import Mathlib.Data.List.Forall2
-- The ordered map of `github.com/elliotchance/orderedmap`, as `declared.Resources` uses
-- it. `Set` keeps the place of a key that is already there and takes the new value; a new
-- key goes to the back. So a map built by `Set` from a list holds each key once, at the
-- place where it first occurs, with the value it was last set to.

namespace config_sync.orderedmap

/-! ## The map -/

/-- `orderedmap.OrderedMap`: its entries from `Front()` to the back. No key is there twice. -/
structure OrderedMap (K V : Type) where
  pairs : List (K × V)
  nodup : (pairs.map Prod.fst).Nodup
deriving DecidableEq

variable {K V : Type} [DecidableEq K]

/-- The entries after `Set(k, v)`. -/
def setPairs (k : K) (v : V) : List (K × V) → List (K × V)
  | [] => [(k, v)]
  | p :: ps => if p.1 = k then (k, v) :: ps else p :: setPairs k v ps

theorem keys_setPairs (k : K) (v : V) (ps : List (K × V)) :
    (setPairs k v ps).map Prod.fst =
      if k ∈ ps.map Prod.fst then ps.map Prod.fst else ps.map Prod.fst ++ [k] := by
  induction ps with
  | nil => simp [setPairs]
  | cons p ps ih =>
    by_cases h : p.1 = k
    · simp [setPairs, h]
    · have hk : k ∈ p.1 :: ps.map Prod.fst ↔ k ∈ ps.map Prod.fst := by simp [Ne.symm h]
      rw [setPairs, if_neg h, List.map_cons, List.map_cons, ih]
      simp only [hk]
      split_ifs <;> rfl

/-- `orderedmap.NewOrderedMap`. -/
def NewOrderedMap : OrderedMap K V := ⟨[], List.nodup_nil⟩

/-- `Set`: a key that is there keeps its place and takes the value, a new key goes to the
back. -/
def OrderedMap.Set (m : OrderedMap K V) (k : K) (v : V) : OrderedMap K V :=
  ⟨setPairs k v m.pairs, by
    rw [keys_setPairs]
    split_ifs with h
    · exact m.nodup
    · exact m.nodup.append (List.nodup_singleton k) (by simpa using h)⟩

/-- `Get`: the value of `k`, if `k` is a key. -/
def OrderedMap.Get (m : OrderedMap K V) (k : K) : Option V := m.pairs.lookup k

/-- `Len`. -/
def OrderedMap.Len (m : OrderedMap K V) : Nat := m.pairs.length

/-- The values met from `Front()` through `Next()`. -/
def OrderedMap.values (m : OrderedMap K V) : List V := m.pairs.map Prod.snd

/-- The map built by setting each pair of a list in turn. -/
def setAll (m : OrderedMap K V) (l : List (K × V)) : OrderedMap K V :=
  l.foldl (fun m p => m.Set p.1 p.2) m

theorem setAll_append_singleton (m : OrderedMap K V) (l : List (K × V)) (p : K × V) :
    setAll m (l ++ [p]) = (setAll m l).Set p.1 p.2 := by
  simp [setAll]

/-- `List.lookup` on a cons, with `=` in place of `==`. -/
theorem lookup_cons_eq (k : K) (p : K × V) (ps : List (K × V)) :
    (p :: ps).lookup k = if k = p.1 then some p.2 else ps.lookup k := by
  obtain ⟨a, b⟩ := p
  rw [List.lookup_cons]
  by_cases h : k = a
  · simp [h]
  · simp [beq_eq_false_iff_ne.mpr h, h]

theorem lookup_setPairs (k k' : K) (v : V) (ps : List (K × V)) :
    (setPairs k v ps).lookup k' = if k' = k then some v else ps.lookup k' := by
  induction ps with
  | nil => simp [setPairs, lookup_cons_eq]
  | cons p ps ih =>
    by_cases h : p.1 = k
    · by_cases h' : k' = k <;> simp [setPairs, lookup_cons_eq, h, h']
    · by_cases h' : k' = k
      · subst h'
        simp [setPairs, lookup_cons_eq, h, Ne.symm h, ih]
      · simp [setPairs, lookup_cons_eq, h, h', ih]

theorem get_set (m : OrderedMap K V) (k k' : K) (v : V) :
    (m.Set k v).Get k' = if k' = k then some v else m.Get k' :=
  lookup_setPairs k k' v m.pairs

/-- In a map, `Get` finds the value of every entry. -/
theorem get_of_mem (m : OrderedMap K V) {p : K × V} (hp : p ∈ m.pairs) : m.Get p.1 = some p.2 := by
  obtain ⟨ps, nd⟩ := m
  simp only [OrderedMap.Get] at hp ⊢
  induction ps with
  | nil => simp at hp
  | cons q ps ih =>
    rw [List.map_cons, List.nodup_cons] at nd
    rcases List.mem_cons.mp hp with rfl | hp
    · simp [lookup_cons_eq]
    · have hne : p.1 ≠ q.1 := fun he => nd.1 (he ▸ List.mem_map_of_mem _ hp)
      simp [lookup_cons_eq, hne, ih nd.2 hp]

/-! ## What a map built by `Set` holds -/

/-- The distinct keys of a list, each at the place where it first occurs. -/
def firstOccurrences : List K → List K
  | [] => []
  | k :: ks => k :: (firstOccurrences ks).filter (· ≠ k)

@[simp]
theorem mem_firstOccurrences (l : List K) (k : K) : k ∈ firstOccurrences l ↔ k ∈ l := by
  induction l with
  | nil => simp [firstOccurrences]
  | cons a l ih => by_cases h : k = a <;> simp [firstOccurrences, ih, h]

theorem firstOccurrences_append_singleton (l : List K) (x : K) :
    firstOccurrences (l ++ [x]) =
      if x ∈ l then firstOccurrences l else firstOccurrences l ++ [x] := by
  induction l with
  | nil => simp [firstOccurrences]
  | cons a l ih =>
    by_cases hl : x ∈ l
    · simp [firstOccurrences, ih, hl]
    · by_cases ha : x = a
      · subst ha; simp [firstOccurrences, ih, hl]
      · simp [firstOccurrences, ih, hl, ha]

/-- Keys are set in place: the keys of a map built from a list are the list's keys at their
first occurrence. -/
theorem keys_setAll (l : List (K × V)) :
    (setAll NewOrderedMap l).pairs.map Prod.fst = firstOccurrences (l.map Prod.fst) := by
  induction l using List.reverseRecOn with
  | nil => rfl
  | append_singleton l p ih =>
    rw [setAll_append_singleton, OrderedMap.Set, keys_setPairs, ih, List.map_append,
      List.map_singleton, firstOccurrences_append_singleton]
    simp only [mem_firstOccurrences]

/-- Values are overwritten: `Get` on a map built from a list finds the last value set. -/
theorem get_setAll (m : OrderedMap K V) (l : List (K × V)) (k : K) :
    (setAll m l).Get k = (l.reverse.lookup k).or (m.Get k) := by
  induction l using List.reverseRecOn with
  | nil => simp [setAll]
  | append_singleton l p ih =>
    rw [setAll_append_singleton, get_set, ih]
    by_cases h : k = p.1 <;> simp [lookup_cons_eq, h]

/-- Each key of a map stands beside the value `Get` finds for it. -/
theorem forall₂_get (m : OrderedMap K V) :
    List.Forall₂ (fun k v => m.Get k = some v) (m.pairs.map Prod.fst) m.values := by
  have h : ∀ ps : List (K × V), (∀ p ∈ ps, m.Get p.1 = some p.2) →
      List.Forall₂ (fun k v => m.Get k = some v) (ps.map Prod.fst) (ps.map Prod.snd) := by
    intro ps hps
    induction ps with
    | nil => exact List.Forall₂.nil
    | cons p ps ih =>
      exact List.Forall₂.cons (hps p (List.mem_cons_self _ _))
        (ih fun q hq => hps q (List.mem_cons_of_mem _ hq))
  exact h m.pairs fun p hp => get_of_mem m hp

end config_sync.orderedmap
