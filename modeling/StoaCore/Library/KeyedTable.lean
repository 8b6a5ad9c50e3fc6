import Mathlib.Data.List.Basic
import Mathlib.Data.List.Forall2
import Mathlib.Data.List.Induction
import Mathlib.Data.List.Nodup

/-!
# KeyedTable — tables with one row for each key

A row whose key is new goes to the end of the table; a row whose key is there is absorbed by the row
that has it.  The second half does the same to rows that live in a heap and are known by their
places: what the places read as is what the table would be.
-/

namespace Library
namespace KeyedTable

variable {κ α : Type*} [DecidableEq κ] (key : α → κ) (absorb : α → α → α)

/-! ## Tables of rows -/

def merge (row : α) : List α → List α
  | [] => [row]
  | first :: table =>
      if key first = key row then absorb first row :: table else first :: merge row table

/-- Adds the rows in order. -/
def mergeAll (table rows : List α) : List α :=
  rows.foldl (fun table row => merge key absorb row table) table

/-- All rows of one key, absorbed in order by the first. -/
def grouped (rows : List α) (k : κ) : Option α :=
  match rows.filter fun row => key row = k with
  | [] => none
  | first :: rest => some (rest.foldl absorb first)

section Rows

variable {key absorb} {row : α} {table rows : List α}

theorem mergeAll_append (table front back : List α) :
    mergeAll key absorb table (front ++ back) =
      mergeAll key absorb (mergeAll key absorb table front) back :=
  List.foldl_append

theorem keys_merge (hkey : ∀ a b, key (absorb a b) = key a) (row : α) (table : List α) :
    (merge key absorb row table).map key =
      if key row ∈ table.map key then table.map key else table.map key ++ [key row] := by
  induction table with
  | nil => simp [merge]
  | cons first table ih =>
      rw [merge]
      split
      case isTrue h => simp [hkey, h]
      case isFalse h =>
        have hne : key row ≠ key first := fun heq => h heq.symm
        rw [List.map_cons, ih]
        by_cases hmem : key row ∈ table.map key
        · rw [if_pos hmem, List.map_cons, if_pos (List.mem_cons_of_mem _ hmem)]
        · have hnot : key row ∉ key first :: table.map key := by
            simpa [hne] using hmem
          rw [if_neg hmem, List.map_cons, if_neg hnot, List.cons_append]

theorem nodup_merge (hkey : ∀ a b, key (absorb a b) = key a) (h : (table.map key).Nodup) :
    ((merge key absorb row table).map key).Nodup := by
  rw [keys_merge hkey]
  split
  case isTrue => exact h
  case isFalse hmem => exact List.nodup_append.2 ⟨h, by simp, by simpa using hmem⟩

theorem find_merge (hkey : ∀ a b, key (absorb a b) = key a) (row : α) (table : List α) (k : κ) :
    (merge key absorb row table).find? (fun r => key r = k) =
      if key row = k then
        some (((table.find? fun r => key r = k).map fun first => absorb first row).getD row)
      else table.find? fun r => key r = k := by
  induction table with
  | nil =>
      by_cases h : key row = k
      · simp [merge, h]
      · simp [merge, h]
  | cons first table ih =>
      rw [merge]
      by_cases hfirst : key first = key row
      · rw [if_pos hfirst]
        by_cases hk : key row = k
        · simp [hkey, hfirst, hk]
        · simp [hkey, hfirst, hk]
      · rw [if_neg hfirst]
        by_cases hk : key first = k
        · have hrow : ¬ key row = k := fun h => hfirst (hk.trans h.symm)
          simp [hk, hrow]
        · simp only [List.find?_cons, hk, decide_false, ih]

theorem nodup_mergeAll (hkey : ∀ a b, key (absorb a b) = key a) (h : (table.map key).Nodup) :
    ((mergeAll key absorb table rows).map key).Nodup := by
  induction rows generalizing table with
  | nil => exact h
  | cons row rows ih => exact ih (nodup_merge hkey h)

/-- The keys of the table, in the order of their first rows. -/
theorem keys_mergeAll [BEq κ] [LawfulBEq κ] (hkey : ∀ a b, key (absorb a b) = key a)
    (rows : List α) :
    (mergeAll key absorb [] rows).map key = (rows.map key).eraseDups := by
  -- The rows are taken off at the end, where `mergeAll` adds them.
  induction rows using List.reverseRecOn with
  | nil => rfl
  | append_singleton rows row ih =>
      rw [mergeAll_append]
      change (merge key absorb row (mergeAll key absorb [] rows)).map key = _
      rw [keys_merge hkey, ih, List.map_append, List.eraseDups_append]
      by_cases hmem : key row ∈ rows.map key
      · have hremove : [key row].removeAll (rows.map key) = [] := by
          rw [List.removeAll, List.filter_cons_of_neg (by simpa using hmem), List.filter_nil]
        simp [hmem, hremove]
      · have hmem' : key row ∉ (rows.map key).eraseDups := by
          simpa using hmem
        have hremove : [key row].removeAll (rows.map key) = [key row] := by
          rw [List.removeAll, List.filter_cons_of_pos (by simpa using hmem), List.filter_nil]
        rw [if_neg hmem', List.map_singleton, hremove]
        rfl

/-- A row of the table is what the rows of its key add up to. -/
theorem find_mergeAll (hkey : ∀ a b, key (absorb a b) = key a) (rows : List α) (k : κ) :
    (mergeAll key absorb [] rows).find? (fun r => key r = k) = grouped key absorb rows k := by
  induction rows using List.reverseRecOn with
  | nil => rfl
  | append_singleton rows row ih =>
      rw [mergeAll_append]
      change (merge key absorb row (mergeAll key absorb [] rows)).find? _ = _
      rw [find_merge hkey, ih]
      unfold grouped
      rw [List.filter_append]
      by_cases hk : key row = k
      · rw [if_pos hk, List.filter_cons_of_pos (by simpa using hk), List.filter_nil]
        cases rows.filter fun r => key r = k with
        | nil => rfl
        | cons first rest => simp
      · rw [if_neg hk, List.filter_cons_of_neg (by simpa using hk), List.filter_nil,
          List.append_nil]

/-- A table with distinct keys is its keys with the row found for each. -/
theorem eq_filterMap_find (h : (table.map key).Nodup) :
    table = (table.map key).filterMap fun k => table.find? fun r => key r = k := by
  induction table with
  | nil => rfl
  | cons first table ih =>
      rw [List.map_cons, List.nodup_cons] at h
      have htail : (table.map key).filterMap
            (fun k => (first :: table).find? fun r => key r = k) =
          (table.map key).filterMap fun k => table.find? fun r => key r = k := by
        refine List.filterMap_congr fun k hk => ?_
        have hne : ¬ key first = k := fun heq => h.1 (heq ▸ hk)
        simp [hne]
      have hhead : ((first :: table).find? fun r => key r = key first) = some first := by simp
      rw [List.map_cons, List.filterMap_cons, hhead, htail, ← ih h.2]

/-- What a list of rows adds up to: for each key, in the order of the first rows, all its rows. -/
theorem mergeAll_nil [BEq κ] [LawfulBEq κ] (hkey : ∀ a b, key (absorb a b) = key a)
    (rows : List α) :
    mergeAll key absorb [] rows =
      (rows.map key).eraseDups.filterMap (grouped key absorb rows) := by
  have hnodup : ((mergeAll key absorb [] rows).map key).Nodup :=
    nodup_mergeAll hkey List.nodup_nil
  calc
    mergeAll key absorb [] rows
        = ((mergeAll key absorb [] rows).map key).filterMap
            fun k => (mergeAll key absorb [] rows).find? fun r => key r = k :=
          eq_filterMap_find hnodup
    _ = (rows.map key).eraseDups.filterMap (grouped key absorb rows) := by
          rw [keys_mergeAll hkey]
          exact List.filterMap_congr fun k _ => find_mergeAll hkey rows k

/-- A table with distinct keys is the table of its own rows. -/
theorem mergeAll_of_nodup {front : List α} (h : ((front ++ rows).map key).Nodup) :
    mergeAll key absorb front rows = front ++ rows := by
  induction rows generalizing front with
  | nil => exact (List.append_nil front).symm
  | cons row rows ih =>
      have hnew : merge key absorb row front = front ++ [row] := by
        have hnot : ∀ r ∈ front, key r ≠ key row := by
          intro r hr heq
          rw [List.map_append, List.nodup_append] at h
          exact h.2.2 _ (List.mem_map_of_mem hr) _ (by simp) heq
        clear h ih
        induction front with
        | nil => rfl
        | cons first front ihf =>
            rw [merge, if_neg (hnot first List.mem_cons_self),
              ihf fun r hr => hnot r (List.mem_cons_of_mem _ hr), List.cons_append]
      have hsplit : front ++ row :: rows = (front ++ [row]) ++ rows := by simp
      rw [hsplit] at h ⊢
      change mergeAll key absorb (merge key absorb row front) rows = _
      rw [hnew, ih h]

theorem merge_eq_map (h : (table.map key).Nodup) :
    ∃ new, merge key absorb row table =
      table.map (fun r => if key r = key row then absorb r row else r) ++ new := by
  induction table with
  | nil => exact ⟨[row], rfl⟩
  | cons first table ih =>
      rw [List.map_cons, List.nodup_cons] at h
      rw [merge]
      by_cases hfirst : key first = key row
      · refine ⟨[], ?_⟩
        have hother : ∀ r ∈ table, (if key r = key row then absorb r row else r) = r := by
          intro r hr
          refine if_neg fun heq => h.1 ?_
          rw [hfirst, ← heq]
          exact List.mem_map_of_mem hr
        have hrest : table.map (fun r => if key r = key row then absorb r row else r) = table := by
          rw [List.map_congr_left hother, List.map_id']
        rw [if_pos hfirst, List.map_cons, if_pos hfirst, hrest, List.append_nil]
      · rcases ih h.2 with ⟨new, hnew⟩
        refine ⟨new, ?_⟩
        rw [if_neg hfirst, List.map_cons, if_neg hfirst, hnew, List.cons_append]

/-- The rows of the table stay in front; each absorbs the added rows of its key. -/
theorem mergeAll_eq_map (hkey : ∀ a b, key (absorb a b) = key a) (h : (table.map key).Nodup) :
    ∃ new, mergeAll key absorb table rows =
      table.map (fun r => (rows.filter fun row => key row = key r).foldl absorb r) ++ new := by
  induction rows generalizing table with
  | nil => exact ⟨[], by simp [mergeAll]⟩
  | cons row rows ih =>
      rcases @merge_eq_map _ _ _ key absorb row table h with ⟨new, hnew⟩
      rcases ih (nodup_merge hkey h) with ⟨newer, hnewer⟩
      refine
        ⟨new.map (fun r => (rows.filter fun row => key row = key r).foldl absorb r) ++ newer, ?_⟩
      change mergeAll key absorb (merge key absorb row table) rows = _
      rw [hnewer, hnew, List.map_append, List.map_map, List.append_assoc]
      congr 1
      refine List.map_congr_left fun r _ => ?_
      by_cases hr : key r = key row
      · simp [hr, hkey]
      · simp [hr, Ne.symm hr]

end Rows

/-! ## Rows in a heap -/

/-- The places read as these rows. -/
abbrev Reads (heap : List α) (places : List Nat) (rows : List α) : Prop :=
  List.Forall₂ (fun place row => heap[place]? = some row) places rows

/-- The first of the places that has the key of `row`. -/
def findPlace (heap : List α) (row : α) (places : List Nat) : Option Nat :=
  places.find? fun place => (heap[place]?).any fun r => key r = key row

/-- Adds the row at `place`: it is written into the row that has its key, or its place is kept. -/
def mergePlace (place : Nat) (row : α) (heap : List α) (places : List Nat) :
    List α × List Nat :=
  match findPlace key heap row places with
  | some found =>
      (heap.modify found fun first => absorb first row, places)
  | none => (heap, places ++ [place])

section Places

variable {key absorb} {heap heap' : List α} {places : List Nat} {rows : List α} {row : α}

theorem Reads.length_lt (h : Reads heap places rows) {place : Nat} (hplace : place ∈ places) :
    place < heap.length := by
  induction h with
  | nil => cases hplace
  | cons hread _ ih =>
      rcases List.mem_cons.1 hplace with rfl | hplace
      · exact (List.getElem?_eq_some_iff.1 hread).1
      · exact ih hplace

/-- Places read the same in a heap that agrees on them. -/
theorem Reads.congr (h : Reads heap places rows)
    (hsame : ∀ place ∈ places, heap'[place]? = heap[place]?) : Reads heap' places rows := by
  induction h with
  | nil => exact .nil
  | cons hread _ ih =>
      refine .cons ((hsame _ List.mem_cons_self).trans hread) (ih fun place hplace => ?_)
      exact hsame place (List.mem_cons_of_mem _ hplace)

/-- What the first places read as. -/
theorem Reads.front {more : List Nat} {rest : List α}
    (h : Reads heap (places ++ more) (rows ++ rest)) (hlength : places.length = rows.length) :
    Reads heap places rows := by
  induction places generalizing rows with
  | nil =>
      cases rows with
      | nil => exact .nil
      | cons row rows => cases hlength
  | cons place places ih =>
      cases rows with
      | nil => cases hlength
      | cons row rows =>
          cases h with
          | cons hread hrest => exact .cons hread (ih hrest (Nat.succ.inj hlength))

theorem Reads.unique {rows' : List α} (h : Reads heap places rows)
    (h' : Reads heap places rows') : rows = rows' := by
  induction h generalizing rows' with
  | nil =>
      cases h'
      rfl
  | cons hread _ ih =>
      cases h' with
      | cons hread' hrest =>
          rw [ih hrest, Option.some.inj (hread.symm.trans hread')]

theorem findPlace_cons_of_eq {place : Nat} {r : α} (hread : heap[place]? = some r)
    (hkey : key r = key row) : findPlace key heap row (place :: places) = some place := by
  simp [findPlace, hread, hkey]

theorem findPlace_cons_of_ne {place : Nat} {r : α} (hread : heap[place]? = some r)
    (hkey : key r ≠ key row) :
    findPlace key heap row (place :: places) = findPlace key heap row places := by
  simp [findPlace, hread, hkey]

theorem mem_of_findPlace {found : Nat} (h : findPlace key heap row places = some found) :
    found ∈ places :=
  List.mem_of_find?_eq_some h

theorem findPlace_eq_none (h : Reads heap places rows) (hnew : key row ∉ rows.map key) :
    findPlace key heap row places = none := by
  induction h with
  | nil => rfl
  | @cons place r places rows hread _ ih =>
      rw [List.map_cons, List.mem_cons, not_or] at hnew
      rw [findPlace_cons_of_ne hread (Ne.symm hnew.1)]
      exact ih hnew.2

/-- A row with a new key: its place is listed, and nothing is written. -/
theorem mergePlace_of_new (h : Reads heap places rows) (hnew : key row ∉ rows.map key)
    (place : Nat) : mergePlace key absorb place row heap places = (heap, places ++ [place]) := by
  rw [mergePlace, findPlace_eq_none h hnew]

/-- A step on distinct places that read as a table gives places that read as the next table, and
writes to none but these places. -/
theorem mergePlace_reads (h : Reads heap places rows) (hnodup : places.Nodup) {place : Nat}
    (hfresh : place ∉ places) (hplace : heap[place]? = some row) :
    Reads (mergePlace key absorb place row heap places).1
      (mergePlace key absorb place row heap places).2 (merge key absorb row rows) := by
  unfold mergePlace
  induction h with
  | nil => exact .cons hplace .nil
  | @cons first r places rows hread hrest ih =>
      rw [List.nodup_cons] at hnodup
      rw [List.mem_cons, not_or] at hfresh
      rw [merge]
      by_cases hkey : key r = key row
      · rw [if_pos hkey, findPlace_cons_of_eq hread hkey]
        refine .cons (by simp [hread]) (Reads.congr hrest fun p hp => ?_)
        have hne : first ≠ p := fun heq => hnodup.1 (heq ▸ hp)
        exact List.getElem?_modify_ne _ _ hne
      · rw [if_neg hkey, findPlace_cons_of_ne hread hkey]
        have htail := ih hnodup.2 hfresh.2
        -- The head is neither read nor written by the rest of the search.
        split at htail
        case h_1 found hfound =>
          have hne : found ≠ first := fun heq => hnodup.1 (heq ▸ mem_of_findPlace hfound)
          exact .cons ((List.getElem?_modify_ne _ _ hne).trans hread) htail
        case h_2 =>
          exact .cons hread htail

theorem mergePlace_places (hnodup : places.Nodup) {place : Nat}
    (hfresh : place ∉ places) :
    (mergePlace key absorb place row heap places).2.Nodup ∧
      ∀ p ∈ (mergePlace key absorb place row heap places).2, p ∈ places ∨ p = place := by
  unfold mergePlace
  split
  case h_1 => exact ⟨hnodup, fun p hp => Or.inl hp⟩
  case h_2 =>
    refine ⟨List.nodup_append.2 ⟨hnodup, by simp, ?_⟩, fun p hp => by simpa using hp⟩
    intro p hp q hq heq
    exact hfresh (List.mem_singleton.1 hq ▸ heq ▸ hp)

theorem prefix_mergePlace {place : Nat} :
    places <+: (mergePlace key absorb place row heap places).2 := by
  unfold mergePlace
  split
  · exact List.prefix_refl _
  · exact List.prefix_append _ _

/-- A step leaves every place alone that it does not list. -/
theorem mergePlace_frame {place p : Nat} (hp : p ∉ places) :
    (mergePlace key absorb place row heap places).1[p]? = heap[p]? := by
  unfold mergePlace
  split
  case h_1 found hfound =>
    have hne : found ≠ p := fun heq => hp (heq ▸ mem_of_findPlace hfound)
    exact List.getElem?_modify_ne _ _ hne
  case h_2 => rfl

theorem mergePlace_length {place : Nat} :
    (mergePlace key absorb place row heap places).1.length = heap.length := by
  unfold mergePlace
  split
  · simp
  · rfl

end Places

end KeyedTable
end Library
