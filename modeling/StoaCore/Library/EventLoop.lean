import Mathlib.Data.List.Nodup

/-!
# EventLoop — parts that share a queue of jobs

The parts of a program leave jobs in one queue, which runs them in the order they came.  To a part
only its own jobs matter, and of those only their order: a step of another part does not change what
it sees.

* `Loop.view` : what one part sees of the loop;
* `Changes` : one part has moved and no other;
* `Precedes` : the order in which two jobs are run.
-/

namespace Library
namespace EventLoop

variable {σ κ ω : Type*}

/-- `busy` is the part in the middle of a callback, during which no job is run. -/
structure Loop (σ κ ω : Type*) where
  parts : List σ := []
  queue : List (Nat × κ) := []
  busy : Option Nat := none
  world : ω

/-- The jobs of one part. -/
def own (id : Nat) (queue : List (Nat × κ)) : List κ :=
  queue.filterMap fun job => if job.1 = id then some job.2 else none

@[simp] theorem own_nil (id : Nat) : own id ([] : List (Nat × κ)) = [] :=
  rfl

@[simp] theorem own_append (id : Nat) (front back : List (Nat × κ)) :
    own id (front ++ back) = own id front ++ own id back :=
  List.filterMap_append

@[simp] theorem own_cons_self (id : Nat) (k : κ) (queue : List (Nat × κ)) :
    own id ((id, k) :: queue) = k :: own id queue := by
  simp [own]

theorem own_cons_of_ne {id n : Nat} (h : n ≠ id) (k : κ) (queue : List (Nat × κ)) :
    own id ((n, k) :: queue) = own id queue := by
  simp [own, h]

@[simp] theorem own_map_self (id : Nat) (jobs : List κ) : own id (jobs.map (id, ·)) = jobs := by
  induction jobs with
  | nil => rfl
  | cons k jobs ih => simp [ih]

theorem own_map_of_ne {id n : Nat} (h : n ≠ id) (jobs : List κ) :
    own id (jobs.map (n, ·)) = [] := by
  induction jobs with
  | nil => rfl
  | cons k jobs ih => rw [List.map_cons, own_cons_of_ne h, ih]

theorem own_eq_nil {id : Nat} {queue : List (Nat × κ)} (h : ∀ job ∈ queue, job.1 ≠ id) :
    own id queue = [] := by
  rw [own, List.filterMap_eq_nil_iff]
  exact fun job hjob => if_neg (h job hjob)

/-! ## What a part sees -/

structure View (σ κ : Type*) where
  part : σ
  jobs : List κ
  busy : Bool

namespace Loop

def view (l : Loop σ κ ω) (id : Nat) : Option (View σ κ) :=
  l.parts[id]?.map fun part => ⟨part, own id l.queue, l.busy == some id⟩

/-- Only parts that are there have jobs or run a callback. -/
structure WellFormed (l : Loop σ κ ω) : Prop where
  queue : ∀ job ∈ l.queue, job.1 < l.parts.length
  busy : ∀ id, l.busy = some id → id < l.parts.length

theorem view_of_getElem? {l : Loop σ κ ω} {id : Nat} {part : σ} (h : l.parts[id]? = some part) :
    l.view id = some ⟨part, own id l.queue, l.busy == some id⟩ := by
  rw [view, h, Option.map_some]

theorem getElem?_of_view {l : Loop σ κ ω} {id : Nat} {v : View σ κ} (h : l.view id = some v) :
    l.parts[id]? = some v.part := by
  rcases Option.map_eq_some_iff.1 h with ⟨part, hpart, rfl⟩
  exact hpart

/-! ## Moves -/

/-- A new part with its first jobs. -/
def spawn (l : Loop σ κ ω) (part : σ) (jobs : List κ) : Loop σ κ ω :=
  { l with
    parts := l.parts ++ [part]
    queue := l.queue ++ jobs.map (l.parts.length, ·) }

/-- A part changes and leaves jobs behind; `queue` is what is there besides these. -/
def move (l : Loop σ κ ω) (id : Nat) (part : σ) (queue : List (Nat × κ)) (jobs : List κ) :
    Loop σ κ ω :=
  { l with
    parts := l.parts.set id part
    queue := queue ++ jobs.map (id, ·) }

end Loop

/-- Part `n` is as in `v` now, and the others see what they have seen before. -/
structure Changes (l l' : Loop σ κ ω) (n : Nat) (v : View σ κ) : Prop where
  moved : l'.view n = some v
  others : ∀ id, id ≠ n → l'.view id = l.view id

/-- What holds of all parts goes on to hold of them if it holds of the one that has moved. -/
theorem Changes.all {l l' : Loop σ κ ω} {n : Nat} {v : View σ κ} (h : Changes l l' n v)
    {P : View σ κ → Prop} (hall : ∀ id w, l.view id = some w → P w) (hv : P v) :
    ∀ id w, l'.view id = some w → P w := by
  intro id w hw
  by_cases hid : id = n
  · subst hid
    rw [h.moved, Option.some.injEq] at hw
    exact hw ▸ hv
  · rw [h.others id hid] at hw
    exact hall id w hw

namespace Loop

variable {l : Loop σ κ ω}

theorem changes_spawn (hl : l.WellFormed) (part : σ) (jobs : List κ) :
    Changes l (l.spawn part jobs) l.parts.length ⟨part, jobs, false⟩ := by
  constructor
  · have hown : own l.parts.length l.queue = [] :=
      own_eq_nil fun job hjob => Nat.ne_of_lt (hl.queue job hjob)
    have hbusy : l.busy ≠ some l.parts.length := fun h => Nat.lt_irrefl _ (hl.busy _ h)
    simp [spawn, view, hown, hbusy]
  · intro id hid
    simp only [spawn, view, own_append, own_map_of_ne hid.symm, List.append_nil]
    rcases Nat.lt_or_ge id l.parts.length with hlt | hge
    · rw [List.getElem?_append_left hlt]
    · have hlt : l.parts.length + 1 ≤ id := Nat.lt_of_le_of_ne hge hid.symm
      rw [List.getElem?_eq_none (by simpa using hlt), List.getElem?_eq_none hge]

/-- The move may begin or end a callback of the part, and change the world. -/
theorem changes_move {n : Nat} (hn : n < l.parts.length) {queue : List (Nat × κ)}
    (hqueue : ∀ id, id ≠ n → own id queue = own id l.queue) {busy : Option Nat}
    (hbusy : ∀ id, id ≠ n → (busy == some id) = (l.busy == some id)) (part : σ) (jobs : List κ) :
    Changes l { l.move n part queue jobs with busy := busy } n
      ⟨part, own n queue ++ jobs, busy == some n⟩ := by
  constructor
  · simp [move, view, hn]
  · intro id hid
    simp only [move, view, own_append, own_map_of_ne hid.symm, List.append_nil, hqueue id hid,
      hbusy id hid, List.getElem?_set_ne hid.symm]

theorem wellFormed_spawn (hl : l.WellFormed) (part : σ) (jobs : List κ) :
    (l.spawn part jobs).WellFormed := by
  constructor
  · intro job hjob
    rw [spawn, List.length_append, List.length_singleton]
    rcases List.mem_append.1 hjob with hjob | hjob
    · exact Nat.lt_succ_of_lt (hl.queue job hjob)
    · rcases List.mem_map.1 hjob with ⟨k, -, rfl⟩
      exact Nat.lt_succ_self _
  · intro id hid
    rw [spawn, List.length_append, List.length_singleton]
    exact Nat.lt_succ_of_lt (hl.busy id hid)

theorem wellFormed_move (hl : l.WellFormed) {n : Nat} (hn : n < l.parts.length)
    {queue : List (Nat × κ)} (hqueue : ∀ job ∈ queue, job ∈ l.queue) {busy : Option Nat}
    (hbusy : ∀ id, busy = some id → id < l.parts.length) (part : σ) (jobs : List κ) :
    ({ l.move n part queue jobs with busy := busy }).WellFormed := by
  constructor
  · intro job hjob
    rw [move, List.length_set]
    rcases List.mem_append.1 hjob with hjob | hjob
    · exact hl.queue job (hqueue job hjob)
    · rcases List.mem_map.1 hjob with ⟨k, -, rfl⟩
      exact hn
  · intro id hid
    rw [move, List.length_set]
    exact hbusy id hid

end Loop

/-! ## The order of jobs -/

theorem nodup_append_singleton {k : κ} {jobs : List κ} (h : jobs.Nodup) (hk : k ∉ jobs) :
    (jobs ++ [k]).Nodup := by
  rw [← List.concat_eq_append]
  exact h.concat hk

/-- In front of every job `b` there is a job `a`. -/
def Precedes (a b : κ) (jobs : List κ) : Prop :=
  ∀ front back, jobs = front ++ b :: back → a ∈ front

theorem not_precedes_cons (a b : κ) (jobs : List κ) : ¬Precedes a b (b :: jobs) :=
  fun h => List.not_mem_nil (h [] jobs rfl)

/-- A job that comes last has the earlier ones in front of it. -/
theorem precedes_append_singleton {a b : κ} {jobs : List κ} (ha : a ∈ jobs) (hb : b ∉ jobs) :
    Precedes a b (jobs ++ [b]) := by
  intro front back heq
  rcases List.eq_nil_or_concat back with rfl | ⟨back, last, rfl⟩
  · exact (List.append_inj_left' heq rfl) ▸ ha
  · rw [List.concat_eq_append, ← List.cons_append, ← List.append_assoc] at heq
    have hjobs := List.append_inj_left' heq rfl
    exact absurd (hjobs ▸ List.mem_append_right front (List.mem_cons_self ..)) hb

/-- What comes later does not change the order of what is there. -/
theorem Precedes.append {a b c : κ} {jobs : List κ} (h : Precedes a b jobs) (hc : c ≠ b) :
    Precedes a b (jobs ++ [c]) := by
  intro front back heq
  rcases List.eq_nil_or_concat back with rfl | ⟨back, last, rfl⟩
  · have hlast := List.append_inj_right' heq rfl
    exact absurd (List.cons.inj hlast).1 hc
  · rw [List.concat_eq_append, ← List.cons_append, ← List.append_assoc] at heq
    exact h front back (List.append_inj_left' heq rfl)

end EventLoop
end Library
