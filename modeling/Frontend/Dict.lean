/-! Finite maps and sets as lists in ascending key order. Insertion replaces the entry of an equal key
in passing, so what a look-up returns never depends on the list being in order. -/

namespace Frontend

structure Dict (κ α : Type) where
  entries : List (κ × α) := []

structure OrdSet (κ : Type) where
  elems : List κ := []

namespace Dict
variable {κ α : Type} [DecidableEq κ] [LT κ] [DecidableLT κ]

def lookupIn (k : κ) : List (κ × α) → Option α
  | [] => none
  | e :: rest => if e.1 = k then some e.2 else lookupIn k rest

def insertIn (k : κ) (a : α) : List (κ × α) → List (κ × α)
  | [] => [(k, a)]
  | e :: rest =>
    if e.1 = k then (k, a) :: rest
    else if k < e.1 then (k, a) :: e :: rest
    else e :: insertIn k a rest

omit [LT κ] [DecidableLT κ] in
def get? (d : Dict κ α) (k : κ) : Option α := lookupIn k d.entries

omit [LT κ] [DecidableLT κ] in
def contains (d : Dict κ α) (k : κ) : Bool := (d.get? k).isSome

def insert (d : Dict κ α) (k : κ) (a : α) : Dict κ α := ⟨insertIn k a d.entries⟩

def insertIfNew (d : Dict κ α) (k : κ) (a : α) : Dict κ α :=
  if d.contains k then d else d.insert k a

omit [LT κ] [DecidableLT κ] in
def erase (d : Dict κ α) (k : κ) : Dict κ α := ⟨d.entries.filter (fun e => e.1 ≠ k)⟩

omit [LT κ] [DecidableLT κ] in
def modify (d : Dict κ α) (k : κ) (f : α → α) : Dict κ α :=
  ⟨d.entries.map (fun e => if e.1 = k then (e.1, f e.2) else e)⟩

def keys (d : Dict κ α) : List κ := d.entries.map (·.1)

def values (d : Dict κ α) : List α := d.entries.map (·.2)

def filter (d : Dict κ α) (p : α → Bool) : Dict κ α := ⟨d.entries.filter (fun e => p e.2)⟩

def size (d : Dict κ α) : Nat := d.entries.length

omit [LT κ] [DecidableLT κ] in
@[simp] theorem get?_empty (k : κ) : (⟨[]⟩ : Dict κ α).get? k = none := rfl

theorem lookupIn_insertIn (k j : κ) (a : α) (l : List (κ × α)) :
    lookupIn j (insertIn k a l) = if k = j then some a else lookupIn j l := by
  induction l with
  | nil => simp [insertIn, lookupIn]
  | cons e rest ih =>
    rw [insertIn]
    split
    · next he => subst he; by_cases hj : e.1 = j <;> simp [lookupIn, hj]
    · next he =>
      split
      · rfl
      · grind [lookupIn]

@[simp] theorem get?_insert (d : Dict κ α) (k j : κ) (a : α) :
    (d.insert k a).get? j = if k = j then some a else d.get? j :=
  lookupIn_insertIn k j a d.entries

omit [LT κ] [DecidableLT κ] in
@[simp] theorem get?_erase (d : Dict κ α) (k j : κ) :
    (d.erase k).get? j = if k = j then none else d.get? j := by
  obtain ⟨l⟩ := d
  show lookupIn j (l.filter (fun e => e.1 ≠ k)) = if k = j then none else lookupIn j l
  induction l with
  | nil => simp [lookupIn]
  | cons e rest ih => grind [lookupIn]

omit [LT κ] [DecidableLT κ] in
@[simp] theorem get?_modify (d : Dict κ α) (k j : κ) (f : α → α) :
    (d.modify k f).get? j = if k = j then (d.get? j).map f else d.get? j := by
  obtain ⟨l⟩ := d
  show lookupIn j (l.map (fun e => if e.1 = k then (e.1, f e.2) else e)) =
    if k = j then (lookupIn j l).map f else lookupIn j l
  induction l with
  | nil => simp [lookupIn]
  | cons e rest ih =>
    grind [lookupIn]

omit [LT κ] [DecidableLT κ] in
theorem mem_of_get? {d : Dict κ α} {k : κ} {a : α} (h : d.get? k = some a) : (k, a) ∈ d.entries := by
  obtain ⟨entries⟩ := d
  unfold get? at h
  dsimp only at h ⊢
  induction entries with
  | nil => cases h
  | cons entry rest ih =>
    unfold lookupIn at h
    split at h
    · next hk =>
      cases h
      exact hk ▸ List.mem_cons_self
    · exact List.mem_cons_of_mem _ (ih h)

omit [LT κ] [DecidableLT κ] in
theorem exists_get?_of_mem {d : Dict κ α} {k : κ} {a : α} (h : (k, a) ∈ d.entries) : ∃ b, d.get? k = some b := by
  obtain ⟨entries⟩ := d
  unfold get?
  dsimp only at h ⊢
  induction entries with
  | nil => cases h
  | cons entry rest ih =>
    unfold lookupIn
    split
    · exact ⟨_, rfl⟩
    · next hk =>
      obtain h | h := List.mem_cons.1 h
      · exact absurd (congrArg Prod.fst h).symm hk
      · exact ih h

omit [LT κ] [DecidableLT κ] in
theorem get?_filter {d : Dict κ α} {k : κ} {a : α} {p : α → Bool} (h : d.get? k = some a) (hp : p a = true) :
    (d.filter p).get? k = some a := by
  obtain ⟨entries⟩ := d
  unfold get? filter at *
  dsimp only at h ⊢
  induction entries with
  | nil => cases h
  | cons entry rest ih => grind [lookupIn]

omit [LT κ] [DecidableLT κ] in
theorem mem_modify {d : Dict κ α} {k j : κ} {b : α} {f : α → α} (h : (j, b) ∈ (d.modify k f).entries) :
    ∃ a, (j, a) ∈ d.entries ∧ b = if j = k then f a else a := by
  obtain ⟨⟨i, a⟩, he, hb⟩ := List.mem_map.1 h
  dsimp only at hb
  split at hb
  · next hk =>
    cases hb
    exact ⟨a, he, (if_pos hk).symm⟩
  · next hk =>
    cases hb
    exact ⟨b, he, (if_neg hk).symm⟩

theorem mem_insert {d : Dict κ α} {k j : κ} {a b : α} (h : (j, b) ∈ (d.insert k a).entries) :
    (j, b) = (k, a) ∨ (j, b) ∈ d.entries := by
  obtain ⟨entries⟩ := d
  unfold insert at h
  dsimp only at h ⊢
  induction entries with
  | nil => exact List.mem_cons.1 h
  | cons entry rest ih =>
    unfold insertIn at h
    split at h
    · exact (List.mem_cons.1 h).imp_right (List.mem_cons_of_mem _)
    · split at h
      · exact List.mem_cons.1 h
      · obtain h | h := List.mem_cons.1 h
        · exact .inr (h ▸ List.mem_cons_self)
        · exact (ih h).imp_right (List.mem_cons_of_mem _)

end Dict

namespace OrdSet
variable {κ : Type} [DecidableEq κ] [LT κ] [DecidableLT κ]

def insertIn (k : κ) : List κ → List κ
  | [] => [k]
  | x :: rest =>
    if x = k then x :: rest
    else if k < x then k :: x :: rest
    else x :: insertIn k rest

def insert (s : OrdSet κ) (k : κ) : OrdSet κ := ⟨insertIn k s.elems⟩

omit [LT κ] [DecidableLT κ] in
def erase (s : OrdSet κ) (k : κ) : OrdSet κ := ⟨s.elems.filter (· ≠ k)⟩

omit [LT κ] [DecidableLT κ] in
def contains (s : OrdSet κ) (k : κ) : Bool := decide (k ∈ s.elems)

def isEmpty (s : OrdSet κ) : Bool := s.elems.isEmpty

instance : Membership κ (OrdSet κ) := ⟨fun s k => k ∈ s.elems⟩

theorem mem_insertIn (k j : κ) (l : List κ) : j ∈ insertIn k l ↔ j = k ∨ j ∈ l := by
  induction l with
  | nil => simp [insertIn]
  | cons x rest ih =>
    by_cases hx : x = k
    · simp [insertIn, hx]
    · by_cases hl : k < x
      · simp [insertIn, hx, hl]
      · simp only [insertIn, hx, hl, if_false, List.mem_cons, ih]
        exact or_left_comm

@[simp] theorem mem_insert (s : OrdSet κ) (k j : κ) : j ∈ s.insert k ↔ j = k ∨ j ∈ s :=
  mem_insertIn k j s.elems

omit [LT κ] [DecidableLT κ] in
@[simp] theorem mem_erase (s : OrdSet κ) (k j : κ) : j ∈ s.erase k ↔ j ∈ s ∧ j ≠ k := by
  show j ∈ s.elems.filter (· ≠ k) ↔ j ∈ s.elems ∧ j ≠ k
  simp

end OrdSet

end Frontend
