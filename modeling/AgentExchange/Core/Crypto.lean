import AgentExchange.Core.Text

/-!
# Digests and signatures as parameters

Ed25519 and SHA-256 come from other crates. The model takes them as functions; a
concrete run is evaluated with their values on the inputs it meets, and with an
output no real digest has on all others.
-/
namespace AgentExchange

/-- The digests of a table, each of `n` bytes; elsewhere a longer word that spells out the
input. -/
def tabulated (n : ℕ) (table : List (Bytes × Bytes)) (input : Bytes) : Bytes :=
  match table.find? fun entry => entry.1 = input with
  | some entry => entry.2
  | none => List.replicate (n + 1) 255 ++ input

variable {n : ℕ} {table : List (Bytes × Bytes)}

theorem tabulated_cases (n : ℕ) (table : List (Bytes × Bytes)) (input : Bytes) :
    (∃ entry ∈ table, entry.1 = input ∧ tabulated n table input = entry.2) ∨
      tabulated n table input = List.replicate (n + 1) 255 ++ input := by
  unfold tabulated
  cases hfind : table.find? fun entry => entry.1 = input with
  | none => exact Or.inr rfl
  | some entry =>
    exact Or.inl ⟨entry, List.mem_of_find?_eq_some hfind,
      by simpa using List.find?_some hfind, rfl⟩

theorem tabulated_ne {digest : Bytes} (hdigest : digest.length = n)
    (htable : ∀ entry ∈ table, entry.2 ≠ digest) (input : Bytes) :
    tabulated n table input ≠ digest := by
  rcases tabulated_cases n table input with ⟨entry, hmem, -, hentry⟩ | hlong
  · rw [hentry]
    exact htable entry hmem
  · intro h
    rw [hlong] at h
    have hlen := congrArg List.length h
    simp only [hdigest, List.length_append, List.length_replicate] at hlen
    omega

theorem tabulated_injective (hlen : ∀ entry ∈ table, entry.2.length = n)
    (hdistinct : (table.map Prod.snd).Nodup) : Function.Injective (tabulated n table) := by
  intro a b h
  rcases tabulated_cases n table a with ⟨x, hx, hxa, hax⟩ | hax <;>
    rcases tabulated_cases n table b with ⟨y, hy, hyb, hby⟩ | hby <;> rw [hax, hby] at h
  · rw [← hxa, ← hyb, List.inj_on_of_nodup_map hdistinct hx hy h]
  · have := congrArg List.length h
    simp only [hlen x hx, List.length_append, List.length_replicate] at this
    omega
  · have := congrArg List.length h
    simp only [hlen y hy, List.length_append, List.length_replicate] at this
    omega
  · exact List.append_cancel_left h

end AgentExchange
