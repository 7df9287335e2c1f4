/-! A table holds at most one entry per key, kept in ascending key order, so that walking its
entries visits the keys in order; the order is part of the table, proved when it is built.
`insert` replaces the entry of an equal key, and `ofList` lets a later entry win over an earlier
one of the same key.
-/

namespace Campaign

/-- A finite map whose entries are kept in ascending key order, as `compare` orders the keys. -/
@[ext] structure Table (κ : Type) (α : Type) [Ord κ] where
  entries : List (κ × α)
  ascending : entries.Pairwise fun a b => compare a.1 b.1 = .lt
  deriving Repr

namespace Table

variable {κ α β : Type} [Ord κ]

/-- The table without entries. -/
def empty : Table κ α := ⟨[], .nil⟩

instance : EmptyCollection (Table κ α) := ⟨empty⟩

instance : Inhabited (Table κ α) := ⟨empty⟩

/-- Put an entry into a key-ordered list, replacing the entry of an equal key. -/
def insertEntry (k : κ) (v : α) : List (κ × α) → List (κ × α)
  | [] => [(k, v)]
  | (k', v') :: rest =>
    match compare k k' with
    | .lt => (k, v) :: (k', v') :: rest
    | .eq => (k, v) :: rest
    | .gt => (k', v') :: insertEntry k v rest

/-- Every entry of the list after an insert is the new one or an old one. -/
theorem mem_insertEntry {k : κ} {v : α} {es : List (κ × α)} {e : κ × α}
    (mem : e ∈ insertEntry k v es) : e = (k, v) ∨ e ∈ es := by
  induction es with
  | nil => simpa [insertEntry] using mem
  | cons e' es ih =>
    obtain ⟨k', v'⟩ := e'
    simp only [insertEntry] at mem
    split at mem
    · simpa using mem
    · rcases List.mem_cons.mp mem with same | later
      · exact .inl same
      · exact .inr (List.mem_cons_of_mem _ later)
    · rcases List.mem_cons.mp mem with same | later
      · exact .inr (same ▸ List.mem_cons_self)
      · rcases ih later with fresh | old
        · exact .inl fresh
        · exact .inr (List.mem_cons_of_mem _ old)

/-- With keys that compare as a total order, inserting keeps the keys ascending; by induction on
the entries, one case per way the new key compares with the one it meets. -/
theorem insertEntry_ascending [Std.TransOrd κ] {es : List (κ × α)}
    (ascending : es.Pairwise fun a b => compare a.1 b.1 = .lt) (k : κ) (v : α) :
    (insertEntry k v es).Pairwise fun a b => compare a.1 b.1 = .lt := by
  induction es with
  | nil => simp [insertEntry]
  | cons e es ih =>
    obtain ⟨k', v'⟩ := e
    obtain ⟨first, rest⟩ := List.pairwise_cons.mp ascending
    simp only [insertEntry]
    split
    · -- in front: below the old head, so below every old key
      rename_i below
      refine List.pairwise_cons.mpr ⟨fun e mem => ?_, ascending⟩
      rcases List.mem_cons.mp mem with rfl | later
      · exact below
      · exact Std.TransCmp.lt_trans below (first e later)
    · -- in the old head's place: as far below the rest as the old head was
      rename_i equal
      exact List.pairwise_cons.mpr ⟨fun e mem => Std.TransCmp.lt_of_eq_of_lt equal (first e mem), rest⟩
    · rename_i above
      have below : compare k' k = .lt := Std.OrientedCmp.lt_of_gt above
      refine List.pairwise_cons.mpr ⟨fun e mem => ?_, ih rest⟩
      rcases mem_insertEntry mem with rfl | old
      · exact below
      · exact first e old

section Ordered

variable [Std.TransOrd κ]

/-- The table with `k` mapped to `v`. -/
def insert (t : Table κ α) (k : κ) (v : α) : Table κ α :=
  ⟨insertEntry k v t.entries, insertEntry_ascending t.ascending k v⟩

/-- The table of a list of entries; a later entry replaces an earlier one of an equal key. -/
def ofList (entries : List (κ × α)) : Table κ α :=
  entries.foldl (fun t (k, v) => t.insert k v) empty

end Ordered

/-- The value of a key. -/
def get? (t : Table κ α) (k : κ) : Option α :=
  (t.entries.find? fun e => compare e.1 k == .eq).map Prod.snd

/-- Whether a key has an entry. -/
def contains (t : Table κ α) (k : κ) : Bool := (t.get? k).isSome

/-- The table with the value of `k` changed by `f`, starting from `init` when `k` has none. -/
def update [Std.TransOrd κ] (t : Table κ α) (k : κ) (init : α) (f : α → α) : Table κ α :=
  t.insert k (f ((t.get? k).getD init))

/-- The keys in ascending order. -/
def keys (t : Table κ α) : List κ := t.entries.map Prod.fst

/-- The values in key order. -/
def values (t : Table κ α) : List α := t.entries.map Prod.snd

/-- The number of entries. -/
def size (t : Table κ α) : Nat := t.entries.length

/-- Whether the table has no entry. -/
def isEmpty (t : Table κ α) : Bool := t.entries.isEmpty

/-- The table without the entry of `k`. -/
def erase (t : Table κ α) (k : κ) : Table κ α :=
  ⟨t.entries.filter fun e => compare e.1 k != .eq, t.ascending.filter _⟩

/-- The table with every value changed by `f`. -/
def mapValues (f : α → β) (t : Table κ α) : Table κ β :=
  ⟨t.entries.map fun (k, v) => (k, f v), List.pairwise_map.mpr (t.ascending.imp id)⟩

end Table

end Campaign
