import Blueprint.Proofs.Compile.Import
import Mathlib.Data.List.Perm.Subperm

/-!
# How deep imports go

The open documents are `Nested` : none of them is open twice, and all but the first are stored in
the library. So there is at most one more of them than there are stored documents
(`Nested.length_le`).

A depth is enough for a session if it covers the documents that are not open yet. With enough depth
it makes no difference how much there is (`compileWithin_congr`), so that compiling a document
follows its recursion as if there were no bound (`compileFrom_eq`).
-/

namespace Blueprint

open Walk

variable {c : Compiler} {l : Library} {walk walk' : DocumentWalk} {base location target : String}
  {opened : List String} {index depth depth' : Nat} {declared : Declared} {entry : OutlineEntry}
  {entries : List OutlineEntry} {root : Element} {i : Import} {s : Session}

/-! ## Open documents -/

/-- What holds of the open documents while a document read from `base` is compiled. -/
structure Nested (l : Library) (base : String) (opened : List String) : Prop where
  nodup : opened.Nodup
  base_mem : base ∈ opened
  stored : ∀ location ∈ opened, location = base ∨ l.contains location = true

namespace Nested

theorem singleton (l : Library) (base : String) : Nested l base [base] where
  nodup := List.nodup_cons.mpr ⟨List.not_mem_nil, List.nodup_nil⟩
  base_mem := List.mem_singleton_self base
  stored _ h := .inl (List.mem_singleton.mp h)

/-- A document that is stored and not open yet can be opened. -/
theorem concat (h : Nested l base opened) (hnot : target ∉ opened)
    (hstored : l.contains target = true) : Nested l base (opened ++ [target]) where
  nodup := List.nodup_append.mpr ⟨h.nodup, List.nodup_cons.mpr ⟨List.not_mem_nil, List.nodup_nil⟩,
    fun a ha b hb hab => hnot (List.mem_singleton.mp hb ▸ hab ▸ ha)⟩
  base_mem := List.mem_append_left _ h.base_mem
  stored location hmem := by
    rcases List.mem_append.mp hmem with hold | hnew
    · exact h.stored location hold
    · exact .inr (List.mem_singleton.mp hnew ▸ hstored)

/-- No more documents are open than are stored, apart from the first. -/
theorem length_le (h : Nested l base opened) : opened.length ≤ l.size + 1 := by
  have hsub : opened ⊆ base :: l.documents.keys := fun location hmem =>
    (h.stored location hmem).elim (fun hbase => hbase ▸ List.mem_cons_self)
      fun hstored => List.mem_cons_of_mem _ (Table.mem_keys.mpr hstored)
  calc opened.length
      ≤ (base :: l.documents.keys).length := (h.nodup.subperm hsub).length_le
    _ = l.size + 1 := by rw [List.length_cons, Table.length_keys, Library.size]

theorem length_pos (h : Nested l base opened) : 0 < opened.length :=
  List.length_pos_of_mem h.base_mem

/-- The target of an import is not open, and it is stored. -/
theorem entering (h : Nested l base s.opened) {document : String} {e : Element}
    (hfind : c.findImport l base document s.opened e = .ok i) :
    Nested l base (s.entering i).opened := by
  obtain ⟨-, -, hnot, hroot⟩ := Compiler.findImport_eq_ok_iff.mp hfind
  exact h.concat hnot (Table.contains_of_get? hroot)

end Nested

namespace Compiler

/-! ## Enough depth -/

/-- Two ways to compile documents make no difference to entries if they make none to the documents
that the entries import. -/
theorem compileEntries_congr (hc : c.source = l.source)
    (hsteady : ∀ target root, Steady (walk target root))
    (hwalk : ∀ {s : Session} {i : Import} {e : Element}, s.opened = opened →
      c.findImport l base location opened e = .ok i →
      walk i.target i.root (s.entering i) = walk' i.target i.root (s.entering i))
    (hs : s.opened = opened) :
    c.compileEntries walk base location index declared entries s =
      c.compileEntries walk' base location index declared entries s := by
  induction entries generalizing index declared s with
  | nil => rfl
  | cons entry entries ih =>
    have hentry : c.compileEntry walk base location index declared entry s =
        c.compileEntry walk' base location index declared entry s := by
      cases entry with
      | importing e =>
        refine bind_congr ?_ fun _ _ _ => rfl
        rw [compileImport_eq hc, compileImport_eq hc]
        cases hfind : c.findImport l base location s.opened e with
        | error cause => rfl
        | ok i => rw [carryOut, carryOut, hwalk hs (hs ▸ hfind)]
      | _ => rfl
    refine bind_congr hentry fun declared' t hrun => ih ?_
    have ht := steady_compileEntry hc hsteady base location index declared entry s
    rw [final_of_ok hrun] at ht
    exact ht.opened.trans hs

/-- Two depths that both cover the documents which are not open yet give the same. -/
theorem compileWithin_congr (hc : c.source = l.source) (hs : Nested l base s.opened)
    (h : l.size + 2 ≤ depth + s.opened.length) (h' : l.size + 2 ≤ depth' + s.opened.length) :
    c.compileWithin base depth location root s = c.compileWithin base depth' location root s := by
  have hle := hs.length_le
  induction depth generalizing depth' location root s with
  | zero => omega
  | succ depth ih =>
    obtain ⟨depth', rfl⟩ : ∃ d, depth' = d + 1 := ⟨depth' - 1, by omega⟩
    refine bind_congr (compileEntries_congr hc (steady_compileWithin hc base depth) ?_ rfl)
      fun _ _ _ => rfl
    intro s' i e hs' hfind
    have hnested : Nested l base (s'.entering i).opened := by
      rw [← hs'] at hs hfind
      exact hs.entering hfind
    have hlength : (s'.entering i).opened.length = s.opened.length + 1 := by
      simp [Session.entering, hs']
    exact ih hnested (by omega) (by omega) hnested.length_le

/-- Compiling from a document on closes what it opens, and takes no rejection back. -/
theorem steady_compileFrom (hc : c.source = l.source) (base location : String) (root : Element) :
    Steady (c.compileFrom base location root) :=
  steady_compileWithin hc base _ location root

/-- Compiling a document is going through its entries, where an import is compiled likewise. -/
theorem compileFrom_eq (hc : c.source = l.source) (hs : Nested l base s.opened) :
    c.compileFrom base location root s =
      c.compileDocument (c.compileFrom base) base location root s := by
  have hlimit : c.source.depthLimit = l.size := by rw [hc]; rfl
  have hpos := hs.length_pos
  show c.compileWithin base _ location root s =
    c.compileWithin base (c.source.depthLimit + 2) location root s
  exact compileWithin_congr hc hs (by omega) (by omega)

end Compiler

end Blueprint
