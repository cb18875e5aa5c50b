import Blueprint.Proofs.Names.Sound

/-!
# The aliases of a name

`aliasesOf` goes from a name backwards along the aliases. `Gathering` is what the search keeps :
an alias is listed once, it leads to the name, and whatever points at a name that was looked at is
listed. An alias that is listed is still to be looked at once, so there is a step for each of them
(`Gathering.pending_eq_nil`), and the search comes to an end (`Gathering.ends`) : `Searched` is the
search as it goes on until nothing is pending, without a bound.

So an alias is listed just if the name is passed by who follows the aliases from it
(`Sound.mem_aliasesOf_iff`), in whatever order the table holds them.
-/

namespace Blueprint.Names

open Relation

variable {n : Names} {name aliasName target : String} {steps : Nat} {pending found : List String}

/-- What is listed next points at the name that is looked at, and was not found before. -/
theorem mem_pointingAt : aliasName ∈ n.pointingAt name found target ↔
    PointsAt n.aliases aliasName target ∧ aliasName ∉ found ∧ aliasName ≠ name := by
  rw [PointsAt, ← Table.mem_entries_iff]
  simp only [pointingAt, List.mem_map, List.mem_filter, List.contains_iff_mem,
    decide_eq_true_eq, Prod.exists]
  constructor
  · rintro ⟨_, _, ⟨hentry, rfl, hf, hne⟩, rfl⟩
    exact ⟨hentry, hf, hne⟩
  · rintro ⟨hentry, hf, hne⟩
    exact ⟨aliasName, target, ⟨hentry, rfl, hf, hne⟩, rfl⟩

theorem nodup_pointingAt (n : Names) (name : String) (found : List String) (target : String) :
    (n.pointingAt name found target).Nodup :=
  n.aliases.keys_nodup.sublist (List.filter_sublist.map Prod.fst)

/-- What the search for the aliases of a name keeps. -/
structure Gathering (n : Names) (name : String) (steps : Nat) (pending found : List String) :
    Prop where
  nodup : found.Nodup
  leads : ∀ a ∈ found, a ≠ name ∧ TransGen (PointsAt n.aliases) a name
  pending_found : ∀ t ∈ pending, t = name ∨ t ∈ found
  /-- What was looked at and is not pending has all that points at it listed. -/
  closed : ∀ t, t = name ∨ t ∈ found →
    t ∈ pending ∨ ∀ a, PointsAt n.aliases a t → a ≠ name → a ∈ found
  /-- There is a step for every alias that is not listed, and for every pending name. -/
  enough : steps + found.length = n.aliases.size + pending.length

/-- At the beginning the name itself is looked at, and no alias was found. -/
theorem gathering_start (n : Names) (name : String) :
    n.Gathering name (n.aliases.size + 1) [name] [] where
  nodup := List.nodup_nil
  leads _ ha := absurd ha List.not_mem_nil
  pending_found _ ht := .inl (List.mem_singleton.mp ht)
  closed _ ht := .inl (List.mem_singleton.mpr (ht.resolve_right List.not_mem_nil))
  enough := rfl

/-- What points at a pending name is found, and becomes pending. -/
theorem Gathering.step (h : n.Gathering name (steps + 1) (target :: pending) found) :
    n.Gathering name steps ((n.pointingAt name found target).reverse ++ pending)
      (found ++ n.pointingAt name found target) where
  nodup := by
    refine List.nodup_append.mpr ⟨h.nodup, nodup_pointingAt n name found target, ?_⟩
    rintro a ha _ hb rfl
    exact (mem_pointingAt.mp hb).2.1 ha
  leads a ha := by
    rcases List.mem_append.mp ha with ha | ha
    · exact h.leads a ha
    · obtain ⟨hp, -, hne⟩ := mem_pointingAt.mp ha
      refine ⟨hne, ?_⟩
      rcases h.pending_found target List.mem_cons_self with rfl | ht
      · exact .single hp
      · exact .head hp (h.leads target ht).2
  pending_found t ht := by
    rw [List.mem_append, List.mem_reverse] at ht
    rw [List.mem_append]
    rcases ht with ht | ht
    · exact .inr (.inr ht)
    · exact (h.pending_found t (List.mem_cons_of_mem _ ht)).imp_right .inl
  closed t ht := by
    rw [List.mem_append, ← or_assoc] at ht
    rcases ht with ht | ht
    · rcases h.closed t ht with hp | hall
      · rcases List.mem_cons.mp hp with rfl | hp
        · refine .inr fun a ha hne => ?_
          by_cases hf : a ∈ found
          · exact List.mem_append_left _ hf
          · exact List.mem_append_right _ (mem_pointingAt.mpr ⟨ha, hf, hne⟩)
        · exact .inl (List.mem_append_right _ hp)
      · exact .inr fun a ha hne => List.mem_append_left _ (hall a ha hne)
    · exact .inl (List.mem_append_left _ (List.mem_reverse.mpr ht))
  enough := by
    -- Every name that becomes pending is one more that was found.
    have := h.enough
    simp only [List.length_append, List.length_reverse, List.length_cons] at this ⊢
    omega

/-- The steps last until nothing is pending. -/
theorem Gathering.pending_eq_nil (h : n.Gathering name 0 pending found) : pending = [] := by
  -- All that is listed is an alias, and listed once.
  have hle : found.length ≤ n.aliases.size := by
    rw [← Table.length_keys]
    refine h.nodup.length_le_of_subset fun a ha => ?_
    obtain ⟨t, ht, -⟩ := TransGen.head'_iff.mp (h.leads a ha).2
    exact Table.mem_keys.mpr (Table.contains_of_get? ht)
  have := h.enough
  exact List.length_eq_zero_iff.mp (by omega)

/-- A search that nothing is pending for has found every alias that leads to the name. -/
theorem Gathering.mem_of_transGen (hc : Acyclic n.aliases) (h : n.Gathering name steps [] found)
    (ha : TransGen (PointsAt n.aliases) aliasName name) : aliasName ∈ found := by
  have listed : ∀ {a t}, PointsAt n.aliases a t → TransGen (PointsAt n.aliases) a name →
      t = name ∨ t ∈ found → a ∈ found := fun {a t} hat han ht =>
    (h.closed t ht).resolve_left List.not_mem_nil a hat fun he => hc name (he ▸ han)
  induction ha using TransGen.head_induction_on with
  | single hp => exact listed hp (.single hp) (.inl rfl)
  | head hp hlead ih => exact listed hp (.head hp hlead) (.inr ih)

/-- The search as it takes one pending name after the other, and lists what points at it, until
nothing is pending. -/
inductive Searched (n : Names) (name : String) : (pending found result : List String) → Prop
  | done {found : List String} : Searched n name [] found found
  | next {target : String} {pending found result : List String}
      (rest : Searched n name ((n.pointingAt name found target).reverse ++ pending)
        (found ++ n.pointingAt name found target) result) :
      Searched n name (target :: pending) found result

/-- The steps that there are take the search to its end. -/
theorem Gathering.ends :
    ∀ {steps : Nat} {pending found : List String}, n.Gathering name steps pending found →
      n.Searched name pending found (n.gatherAliases name steps pending found) ∧
        ∃ left, n.Gathering name left [] (n.gatherAliases name steps pending found)
  | 0, pending, found, h => by
    obtain rfl := h.pending_eq_nil
    exact ⟨.done, 0, h⟩
  | steps + 1, [], found, h => ⟨.done, steps + 1, h⟩
  | _ + 1, _ :: _, _, h => by
    rw [gatherAliases]
    obtain ⟨hsearched, hend⟩ := h.step.ends
    exact ⟨.next hsearched, hend⟩

/-- The aliases of a name are found by a search that comes to its end. -/
theorem searched_aliasesOf (n : Names) (name : String) :
    n.Searched name [name] [] (n.aliasesOf name) :=
  (gathering_start n name).ends.1

theorem nodup_aliasesOf (n : Names) (name : String) : (n.aliasesOf name).Nodup := by
  obtain ⟨left, hend⟩ := (gathering_start n name).ends.2
  exact hend.nodup

/-- The aliases of a name are those that lead to it. -/
theorem Sound.mem_aliasesOf_iff (hn : n.Sound) :
    aliasName ∈ n.aliasesOf name ↔ TransGen (PointsAt n.aliases) aliasName name := by
  obtain ⟨left, hend⟩ := (gathering_start n name).ends.2
  exact ⟨fun ha => (hend.leads aliasName ha).2, hend.mem_of_transGen hn.acyclic⟩

end Blueprint.Names
