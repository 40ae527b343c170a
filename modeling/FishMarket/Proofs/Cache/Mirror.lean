import FishMarket.Cache.Memory
import FishMarket.Proofs.Text.Decimal
import FishMarket.Record.Writer

/-! # What a cache mirrors

A cache is looked at without regard to the clock: a text that it holds may be handed out until it is
replaced or erased, and it may cease to be valid at any moment. A cache mirrors the rows of a table
if everything that it holds under the key of an id is the JSON form of a row under that id. Keys of
different entities or ids are different, so what is done for one of them does not touch the others.
-/

namespace FishMarket

/-! ## Keys -/

namespace Cache

theorem key_injective {entity other : Entity} {id otherId : Int}
    (hkey : key entity id = key other otherId) : entity = other ∧ id = otherId := by
  have hlists :
      "fish-auction:".toList ++ (entity.name.toList ++ (':' :: (Text.decimal id).toList)) =
      "fish-auction:".toList ++ (other.name.toList ++ (':' :: (Text.decimal otherId).toList)) := by
    simpa [key, String.toList_append] using congrArg String.toList hkey
  have hrest := List.append_cancel_left hlists
  cases entity <;> cases other
  case item.item | buyer.buyer | fisherman.fisherman =>
    have hid := (List.cons.inj (List.append_cancel_left hrest)).2
    exact ⟨rfl, Text.decimal_injective (String.toList_inj.mp hid)⟩
  -- the names of different entities begin with different letters
  all_goals exact absurd (List.cons.inj hrest).1 (by decide)

end Cache

namespace MemoryCache

/-! ## Texts -/

/-- Whether a cache has a text under a key, be it still valid or not. -/
def Holds (cache : MemoryCache) (key text : String) : Prop :=
  ∃ entry, cache.entries.lookup key = some entry ∧ entry.text = text

/-- Whether a cache holds nothing that another does not hold. -/
def Within (cache other : MemoryCache) : Prop :=
  ∀ key text, cache.Holds key text → other.Holds key text

theorem Within.refl (cache : MemoryCache) : cache.Within cache := fun _ _ => id

theorem Within.trans {first second third : MemoryCache} (hfirst : first.Within second)
    (hsecond : second.Within third) : first.Within third :=
  fun key text hholds => hsecond key text (hfirst key text hholds)

theorem holds_of_find? {cache : MemoryCache} {moment : Nat} {key text : String}
    (hfind : cache.find? moment key = some text) : cache.Holds key text := by
  unfold find? at hfind
  split at hfind
  next entry hlookup =>
    split at hfind
    next => exact ⟨entry, hlookup, Option.some.inj hfind⟩
    next => cases hfind
  next => cases hfind

theorem not_holds_empty (key text : String) : ¬empty.Holds key text := by
  rintro ⟨entry, hlookup, -⟩
  cases hlookup

theorem lookup_filter {α : Type} (entries : List (String × α)) (keep : String → Bool)
    (key : String) : (entries.filter fun entry => keep entry.1).lookup key =
      if keep key = true then entries.lookup key else none := by
  induction entries with
  | nil => split <;> rfl
  | cons entry rest ih =>
      obtain ⟨other, value⟩ := entry
      rw [List.filter_cons, List.lookup_cons]
      by_cases hsame : key = other
      · subst hsame
        cases hkeep : keep key <;> simp [hkeep, ih]
      · have hbeq : (key == other) = false := beq_false_of_ne hsame
        cases hkeep : keep other <;> simp [List.lookup_cons, hbeq, ih]

/-- What is left of a cache when the texts under some keys are lost. -/
def lose (cache : MemoryCache) (lost : String → Bool) : MemoryCache :=
  ⟨cache.entries.filter fun entry => !lost entry.1⟩

theorem lose_within (cache : MemoryCache) (lost : String → Bool) :
    (cache.lose lost).Within cache := by
  rintro key text ⟨entry, hlookup, rfl⟩
  rw [lose, lookup_filter cache.entries (fun key => !lost key)] at hlookup
  split at hlookup
  next => exact ⟨entry, hlookup, rfl⟩
  next => cases hlookup

theorem holds_erase {cache : MemoryCache} {key other text : String}
    (hholds : (cache.erase key).Holds other text) : other ≠ key ∧ cache.Holds other text := by
  obtain ⟨entry, hlookup, rfl⟩ := hholds
  rw [erase, lookup_filter cache.entries (fun other => other ≠ key)] at hlookup
  split at hlookup
  next hother => exact ⟨of_decide_eq_true hother, entry, hlookup, rfl⟩
  next => cases hlookup

theorem erase_within (cache : MemoryCache) (key : String) : (cache.erase key).Within cache :=
  fun _ _ hholds => (holds_erase hholds).2

theorem holds_insert {cache : MemoryCache} {moment ttl : Nat} {key text other found : String}
    (hholds : (cache.insert moment key text ttl).Holds other found) :
    other = key ∧ found = text ∨ cache.Holds other found := by
  obtain ⟨entry, hlookup, rfl⟩ := hholds
  rw [insert, List.lookup_cons] at hlookup
  split at hlookup
  next heq => exact .inl ⟨eq_of_beq heq, (Option.some.inj hlookup) ▸ rfl⟩
  next => exact .inr (holds_erase ⟨entry, hlookup, rfl⟩).2

/-! ## Rows -/

variable {α : Type} [Recorded α] {entity : Cache.Entity} {held : Int → α → Prop}
  {cache other : MemoryCache}

/-- Whether a cache holds nothing for an entity but the JSON forms of certain rows. -/
def Mirrors (cache : MemoryCache) (entity : Cache.Entity) (held : Int → α → Prop) : Prop :=
  ∀ id text, cache.Holds (Cache.key entity id) text →
    ∃ row, held id row ∧ text = String.ofList (Recorded.json row)

theorem mirrors_empty (entity : Cache.Entity) (held : Int → α → Prop) :
    empty.Mirrors entity held :=
  fun _ _ hholds => absurd hholds (not_holds_empty _ _)

theorem Mirrors.mono {later : Int → α → Prop} (hmirrors : cache.Mirrors entity held)
    (hlater : ∀ id row, held id row → later id row) : cache.Mirrors entity later := by
  intro id text hholds
  obtain ⟨row, hrow, htext⟩ := hmirrors id text hholds
  exact ⟨row, hlater id row hrow, htext⟩

theorem Mirrors.within (hmirrors : cache.Mirrors entity held) (hwithin : other.Within cache) :
    other.Mirrors entity held :=
  fun id text hholds => hmirrors id text (hwithin _ text hholds)

/-- Whether a cache holds nothing that another does not hold, except for a row of an entity, if
there is one. -/
def Learns (cache other : MemoryCache) (entity : Cache.Entity) (id : Int) (row? : Option α) :
    Prop :=
  ∀ key text, cache.Holds key text → other.Holds key text ∨
    ∃ row, row? = some row ∧ key = Cache.key entity id ∧ text = String.ofList (Recorded.json row)

theorem Learns.of_within (hwithin : cache.Within other) (entity : Cache.Entity) (id : Int)
    (row? : Option α) : cache.Learns other entity id row? :=
  fun key text hholds => .inl (hwithin key text hholds)

/-- What is learned of an entity is mirrored if it is one of its rows. -/
theorem Learns.mirrors {id : Int} {row? : Option α} (hlearns : cache.Learns other entity id row?)
    (hmirrors : other.Mirrors entity held) (hrow : ∀ row, row? = some row → held id row) :
    cache.Mirrors entity held := by
  intro id' text hholds
  rcases hlearns _ text hholds with hbefore | ⟨row, hlearned, hkey, htext⟩
  · exact hmirrors id' text hbefore
  · obtain ⟨-, rfl⟩ := Cache.key_injective hkey
    exact ⟨row, hrow row hlearned, htext⟩

/-- What is learned of an entity has nothing to do with the others. -/
theorem Learns.mirrors_other {β : Type} [Recorded β] {entity' : Cache.Entity} {id : Int}
    {row? : Option β} (hlearns : cache.Learns other entity' id row?) (hother : entity ≠ entity')
    (hmirrors : other.Mirrors entity held) : cache.Mirrors entity held := by
  intro id' text hholds
  rcases hlearns _ text hholds with hbefore | ⟨row, -, hkey, -⟩
  · exact hmirrors id' text hbefore
  · exact absurd (Cache.key_injective hkey).1 hother

end MemoryCache

end FishMarket
