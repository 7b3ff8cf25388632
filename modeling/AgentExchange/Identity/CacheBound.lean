import AgentExchange.Identity.ResolverChain
import AgentExchange.Library.StableSort

/-!
# The bound of the resolver cache

A cache above its capacity is sorted by age and gives up its first entries; among entries of one
age, the order in which the map is iterated decides. A run of the cache takes the operations that
change it in any order, on any handles and at any instants.
-/
namespace AgentExchange.Identity

open Library

/-- What changes the cache. -/
inductive CacheStep where
  | insert (order : List AgentId) (id : AgentId) (entry : CacheEntry)
  | extend (id : AgentId) (now : ℕ) (origin : Origin)
  | invalidate (id : AgentId)

namespace Cache

/-- `cache_extend`. -/
def extend (cache : Cache) (id : AgentId) (now : ℕ) (origin : Origin) : Cache :=
  match cache.get id with
  | some e => cache.put id { e with inserted := now, origin := origin }
  | none => cache

def next (capacity : ℕ) (cache : Cache) : CacheStep → Cache
  | .insert order id entry => cache.insert capacity order id entry
  | .extend id now origin => cache.extend id now origin
  | .invalidate id => cache.remove [id]

/-- At most as many entries as the capacity, and one for each handle. -/
structure Bounded (capacity : ℕ) (cache : Cache) : Prop where
  within : cache.length ≤ capacity
  keys : (cache.map Prod.fst).Nodup

/-- Of a cache that is too full, only as many entries go as it has too many, and none that is
younger than one that stays. -/
structure EvictsOldest (capacity : ℕ) (full kept : Cache) : Prop where
  sublist : kept.Sublist full
  evicted : full.length - kept.length = full.length - capacity
  oldest : ∀ e ∈ full, e ∉ kept → ∀ r ∈ kept, e.2.inserted ≤ r.2.inserted

variable {cache : Cache} {id : AgentId} {entry e : CacheEntry} {capacity : ℕ}

/-! ### Keys and lengths -/

theorem mem_remove {ids : List AgentId} {x : AgentId × CacheEntry} :
    x ∈ cache.remove ids ↔ x ∈ cache ∧ x.1 ∉ ids := by
  simp [remove]

theorem keys_remove (h : (cache.map Prod.fst).Nodup) (ids : List AgentId) :
    ((cache.remove ids).map Prod.fst).Nodup :=
  h.sublist (List.filter_sublist.map Prod.fst)

theorem length_remove_le (cache : Cache) (ids : List AgentId) :
    (cache.remove ids).length ≤ cache.length :=
  List.length_filter_le _ cache

theorem keys_put (h : (cache.map Prod.fst).Nodup) (id : AgentId) (entry : CacheEntry) :
    ((cache.put id entry).map Prod.fst).Nodup := by
  rw [put, List.map_cons, List.nodup_cons]
  constructor
  · intro hmem
    obtain ⟨x, hx, hid⟩ := List.mem_map.mp hmem
    exact (mem_remove.mp hx).2 (List.mem_singleton.mpr hid)
  · exact keys_remove h [id]

theorem length_put_le (cache : Cache) (id : AgentId) (entry : CacheEntry) :
    (cache.put id entry).length ≤ cache.length + 1 :=
  Nat.succ_le_succ (length_remove_le cache [id])

theorem mem_of_get (h : cache.get id = some e) : (id, e) ∈ cache := by
  obtain ⟨x, hfind, rfl⟩ := Option.map_eq_some_iff.mp h
  have hid : x.1 = id := by simpa using List.find?_some hfind
  rw [← hid]
  exact List.mem_of_find?_eq_some hfind

/-- An entry that is put in place of another does not make the cache longer. -/
theorem length_put_of_get (h : cache.get id = some e) :
    (cache.put id entry).length ≤ cache.length := by
  have hlt : (cache.remove [id]).length < cache.length := by
    apply List.length_filter_lt_length_iff_exists.mpr
    exact ⟨(id, e), mem_of_get h, by simp⟩
  exact hlt

/-- In a cache without a key twice, `get` finds what is there. -/
theorem get_of_mem (hkeys : (cache.map Prod.fst).Nodup) (h : (id, entry) ∈ cache) :
    cache.get id = some entry := by
  have hsome : (cache.find? fun x => x.1 = id).isSome := by
    rw [List.find?_isSome]
    exact ⟨(id, entry), h, by simp⟩
  obtain ⟨x, hx⟩ := Option.isSome_iff_exists.mp hsome
  have hid : x.1 = (id, entry).1 := by simpa using List.find?_some hx
  have hxe : x = (id, entry) :=
    List.inj_on_of_nodup_map hkeys (List.mem_of_find?_eq_some hx) h hid
  rw [get, hx, hxe]
  rfl

/-! ### Eviction -/

/-- The entries as an eviction sorts them. -/
def byAge (cache : Cache) (order : List AgentId) : Cache :=
  (cache.mergeSort fun a b => order.idxOf a.1 ≤ order.idxOf b.1).mergeSort fun a b =>
    a.2.inserted ≤ b.2.inserted

theorem victims_eq (cache : Cache) (capacity : ℕ) (order : List AgentId) :
    cache.victims capacity order =
      ((cache.byAge order).take (cache.length - capacity)).map Prod.fst :=
  rfl

theorem byAge_perm (cache : Cache) (order : List AgentId) : (cache.byAge order).Perm cache :=
  (List.mergeSort_perm _ _).trans (List.mergeSort_perm _ _)

theorem le_of_mem_byAge {order : List AgentId} {n : ℕ} {a b : AgentId × CacheEntry}
    (ha : a ∈ (cache.byAge order).take n) (hb : b ∈ (cache.byAge order).drop n) :
    a.2.inserted ≤ b.2.inserted := by
  have hsort : IsStableSort (fun x : AgentId × CacheEntry => x.2.inserted) _ (cache.byAge order) :=
    isStableSort_mergeSort (by simp) _
  exact hsort.le_of_mem_take ha hb

/-- What an insert leaves is, up to the order of the list, all but the oldest. -/
theorem insert_perm (hkeys : (cache.map Prod.fst).Nodup) (capacity : ℕ) (order : List AgentId)
    (id : AgentId) (entry : CacheEntry) :
    (cache.insert capacity order id entry).Perm
      (((cache.put id entry).byAge order).drop ((cache.put id entry).length - capacity)) := by
  have hput := keys_put hkeys id entry
  rw [insert]
  split_ifs with hfull
  · exact filter_notMem_take_perm (byAge_perm _ order) hput _
  · rw [Nat.sub_eq_zero_of_le (not_lt.mp hfull), List.drop_zero]
    exact (byAge_perm _ order).symm

theorem insert_sublist (order : List AgentId) :
    (cache.insert capacity order id entry).Sublist (cache.put id entry) := by
  rw [insert]
  split_ifs
  · exact List.filter_sublist
  · exact List.Sublist.refl _

theorem length_insert (hkeys : (cache.map Prod.fst).Nodup) (capacity : ℕ) (order : List AgentId)
    (id : AgentId) (entry : CacheEntry) :
    (cache.insert capacity order id entry).length =
      (cache.put id entry).length - ((cache.put id entry).length - capacity) := by
  rw [(insert_perm hkeys capacity order id entry).length_eq, List.length_drop, (byAge_perm _ order).length_eq]

theorem insert_evictsOldest (hkeys : (cache.map Prod.fst).Nodup) (capacity : ℕ)
    (order : List AgentId) (id : AgentId) (entry : CacheEntry) :
    EvictsOldest capacity (cache.put id entry) (cache.insert capacity order id entry) where
  sublist := insert_sublist order
  evicted := by
    have hlength := length_insert hkeys capacity order id entry
    omega
  oldest := by
    intro x hx hgone r hr
    have hperm := insert_perm hkeys capacity order id entry
    rw [hperm.mem_iff] at hgone hr
    have hmem := (byAge_perm (cache.put id entry) order).mem_iff.mpr hx
    rw [← List.take_append_drop ((cache.put id entry).length - capacity)
      ((cache.put id entry).byAge order), List.mem_append] at hmem
    exact le_of_mem_byAge (hmem.resolve_right hgone) hr

/-- A record that is younger than all others stays, if one may stay at all. -/
theorem get_insert_newest (hkeys : (cache.map Prod.fst).Nodup) (order : List AgentId)
    (hcapacity : 1 ≤ capacity)
    (hnewest : ∀ x ∈ cache, x.1 ≠ id → x.2.inserted < entry.inserted) :
    (cache.insert capacity order id entry).get id = some entry := by
  have hevicts := insert_evictsOldest hkeys capacity order id entry
  have hkept : ((cache.insert capacity order id entry).map Prod.fst).Nodup :=
    (keys_put hkeys id entry).sublist (hevicts.sublist.map Prod.fst)
  apply get_of_mem hkept
  by_contra hgone
  have hlength := length_insert hkeys capacity order id entry
  have hput : 0 < (cache.put id entry).length := Nat.succ_pos _
  obtain ⟨r, hr⟩ : ∃ r, r ∈ cache.insert capacity order id entry := by
    apply List.exists_mem_of_length_pos
    omega
  have hle : entry.inserted ≤ r.2.inserted :=
    hevicts.oldest (id, entry) List.mem_cons_self hgone r hr
  rcases List.mem_cons.mp (hevicts.sublist.mem hr) with hnew | hold
  · exact hgone (hnew ▸ hr)
  · obtain ⟨hmem, hne⟩ := mem_remove.mp hold
    have hlt := hnewest r hmem fun hid => hne (List.mem_singleton.mpr hid)
    omega

/-! ### Runs -/

theorem bounded_nil (capacity : ℕ) : Bounded capacity [] := ⟨Nat.zero_le _, List.nodup_nil⟩

/-- Every step keeps the bound. -/
theorem Bounded.step (h : Bounded capacity cache) (l : CacheStep) :
    Bounded capacity (cache.next capacity l) := by
  cases l with
  | insert order id entry =>
    constructor
    · change (cache.insert capacity order id entry).length ≤ capacity
      have hlength := length_insert h.keys capacity order id entry
      omega
    · exact (keys_put h.keys id entry).sublist ((insert_sublist order).map Prod.fst)
  | extend id now origin =>
    rw [Cache.next, extend]
    cases hget : cache.get id with
    | some e => exact ⟨(length_put_of_get hget).trans h.within, keys_put h.keys id _⟩
    | none => exact h
  | invalidate id => exact ⟨(length_remove_le cache [id]).trans h.within, keys_remove h.keys [id]⟩

theorem Bounded.run (h : Bounded capacity cache) (steps : List CacheStep) :
    Bounded capacity (Machine.run (next capacity) cache steps) := by
  induction steps generalizing cache with
  | nil => exact h
  | cons l steps ih => exact ih (h.step l)

/-- The cache is within its bound after every run, and the next insert evicts the oldest. -/
theorem cache_bounded_and_evicts_oldest (capacity : ℕ) (steps : List CacheStep) :
    let cache := Machine.run (next capacity) [] steps
    Bounded capacity cache ∧
      ∀ order id entry,
        EvictsOldest capacity (cache.put id entry) (cache.insert capacity order id entry) ∧
        (1 ≤ capacity → (∀ x ∈ cache, x.1 ≠ id → x.2.inserted < entry.inserted) →
          (cache.insert capacity order id entry).get id = some entry) := by
  intro cache
  have hbounded : Bounded capacity cache := (bounded_nil capacity).run steps
  constructor
  · exact hbounded
  · intro order id entry
    constructor
    · exact insert_evictsOldest hbounded.keys capacity order id entry
    · intro hcapacity hnewest
      exact get_insert_newest hbounded.keys order hcapacity hnewest

end Cache

/-! ## The cache of the chain -/

variable {chain : ResolverChain} {s s' : ResolverState}

/-- A step of the chain leaves the cache or takes one step of it. -/
theorem Acts.cache {l : ResolverStep} (h : Acts chain s l s') :
    s'.cache = s.cache ∨ ∃ step, s'.cache = s.cache.next chain.capacity step := by
  cases h with
  | @moved i order call phase shared hcall hmove =>
    generalize call.phase = before at hmove
    cases hmove with
    | store n entry => exact .inr ⟨.insert order call.handle entry, rfl⟩
    | @extend e n etag cached origin hget =>
      apply Or.inr
      use .extend call.handle s.now origin
      change s.cache.put call.handle _ = s.cache.extend call.handle s.now origin
      rw [Cache.extend, hget]
    | _ => exact .inl rfl
  | @removed i began handle hinv => exact .inr ⟨.invalidate handle, rfl⟩
  | _ => exact .inl rfl

/-- The cache of a chain in use has made a run of its own. -/
theorem exists_cache_run (chain : ResolverChain) (labels : List ResolverStep) :
    ∃ steps, (Machine.run (ResolverState.next chain) {} labels).cache =
      Machine.run (Cache.next chain.capacity) [] steps := by
  induction labels using List.reverseRecOn with
  | nil => exact ⟨[], rfl⟩
  | append_singleton labels l ih =>
    obtain ⟨steps, hsteps⟩ := ih
    rw [Machine.run_append]
    rcases (ResolverState.acts chain _ l).cache with hsame | ⟨step, hstep⟩
    · exact ⟨steps, hsame.trans hsteps⟩
    · use steps ++ [step]
      rw [Machine.run_append, ← hsteps]
      exact hstep

theorem resolver_cache_bounded (chain : ResolverChain) (labels : List ResolverStep) :
    Cache.Bounded chain.capacity (Machine.run (ResolverState.next chain) {} labels).cache := by
  obtain ⟨steps, hsteps⟩ := exists_cache_run chain labels
  rw [hsteps]
  exact (Cache.bounded_nil _).run steps

end AgentExchange.Identity
