import Mathlib.Data.List.Nodup

/-! How a table with a primary key changes: rows are updated in place, deleted or inserted. What a
transaction does to a table is said row by row, and the key stays a key. -/
namespace Linea.Tables

variable {α κ : Type*}

/-- Every row of `rows'` is a row of `rows` after a change that `moves` allows, or the one `new` row,
and no row of `rows` has been lost unless it may be `gone`. -/
structure Evolves (key : α → κ) (moves : α → α → Prop) (gone new : α → Prop)
    (rows rows' : List α) : Prop where
  row : ∀ row' ∈ rows', (∃ row ∈ rows, key row' = key row ∧ moves row row') ∨
    (key row' ∉ rows.map key ∧ new row')
  single : ∀ row' ∈ rows', ∀ row'' ∈ rows', key row' ∉ rows.map key → key row'' ∉ rows.map key →
    row' = row''
  kept : ∀ row ∈ rows, (∃ row' ∈ rows', key row' = key row ∧ moves row row') ∨ gone row
  nodup : (rows.map key).Nodup → (rows'.map key).Nodup

section Evolves
variable {key : α → κ} {moves : α → α → Prop} {gone new : α → Prop} {rows rows' rows'' : List α}

lemma Evolves.update {f : α → α} (hkey : ∀ row ∈ rows, key (f row) = key row)
    (hmoves : ∀ row ∈ rows, moves row (f row)) :
    Evolves key moves gone new rows (rows.map f) := by
  refine ⟨?_,?_,?_,?_⟩
  · intro row' hrow'
    obtain ⟨row,hrow,rfl⟩ := List.mem_map.mp hrow'
    exact .inl ⟨row,hrow,hkey row hrow,hmoves row hrow⟩
  · intro row' hrow' _ _ hfresh
    obtain ⟨row,hrow,rfl⟩ := List.mem_map.mp hrow'
    exact absurd (List.mem_map.mpr ⟨row,hrow,(hkey row hrow).symm⟩) hfresh
  · intro row hrow
    exact .inl ⟨f row,List.mem_map_of_mem hrow,hkey row hrow,hmoves row hrow⟩
  · intro hnodup
    have hsame : (rows.map f).map key = rows.map key := by
      rw [List.map_map]
      exact List.map_congr_left hkey
    rw [hsame]
    exact hnodup

lemma Evolves.refl (hmoves : ∀ row, moves row row) : Evolves key moves gone new rows rows := by
  have h : Evolves key moves gone new rows (rows.map id) :=
    Evolves.update (fun _ _ => rfl) fun row _ => hmoves row
  simpa using h

lemma Evolves.delete {keep : α → Bool} (hmoves : ∀ row, moves row row)
    (hgone : ∀ row ∈ rows, keep row = false → gone row) :
    Evolves key moves gone new rows (rows.filter keep) := by
  refine ⟨?_,?_,?_,?_⟩
  · intro row' hrow'
    exact .inl ⟨row',List.mem_of_mem_filter hrow',rfl,hmoves row'⟩
  · intro row' hrow' _ _ hfresh
    exact absurd (List.mem_map_of_mem (List.mem_of_mem_filter hrow')) hfresh
  · intro row hrow
    cases hkeep : keep row with
    | true => exact .inl ⟨row,List.mem_filter.mpr ⟨hrow,hkeep⟩,rfl,hmoves row⟩
    | false => exact .inr (hgone row hrow hkeep)
  · intro hnodup
    exact hnodup.sublist (List.filter_sublist.map key)

lemma Evolves.insert {row : α} (hmoves : ∀ row, moves row row) (hkey : key row ∉ rows.map key)
    (hnew : new row) : Evolves key moves gone new rows (rows ++ [row]) := by
  have hlast : ∀ row' ∈ rows ++ [row], key row' ∉ rows.map key → row' = row := by
    intro row' hrow' hfresh
    rcases List.mem_append.mp hrow' with hold | hlast
    · exact absurd (List.mem_map_of_mem hold) hfresh
    · exact List.mem_singleton.mp hlast
  refine ⟨?_,?_,?_,?_⟩
  · intro row' hrow'
    rcases List.mem_append.mp hrow' with hold | hlast
    · exact .inl ⟨row',hold,rfl,hmoves row'⟩
    · rw [List.mem_singleton.mp hlast]
      exact .inr ⟨hkey,hnew⟩
  · intro row' hrow' row'' hrow'' hfresh hfresh'
    rw [hlast row' hrow' hfresh,hlast row'' hrow'' hfresh']
  · intro row' hrow'
    exact .inl ⟨row',List.mem_append_left _ hrow',rfl,hmoves row'⟩
  · intro hnodup
    rw [List.map_append,List.nodup_append]
    refine ⟨hnodup,List.nodup_singleton _,?_⟩
    intro k hk k' hk' heq
    rw [List.map_singleton,List.mem_singleton] at hk'
    exact hkey (hk' ▸ heq ▸ hk)

lemma Evolves.mono {moves' : α → α → Prop} {gone' new' : α → Prop}
    (h : Evolves key moves gone new rows rows')
    (hmoves : ∀ row row', moves row row' → moves' row row')
    (hgone : ∀ row, gone row → gone' row) (hnew : ∀ row, new row → new' row) :
    Evolves key moves' gone' new' rows rows' := by
  refine ⟨?_,h.single,?_,h.nodup⟩
  · intro row' hrow'
    rcases h.row row' hrow' with ⟨row,hrow,hkey,hmove⟩ | ⟨hfresh,hrow⟩
    · exact .inl ⟨row,hrow,hkey,hmoves row row' hmove⟩
    · exact .inr ⟨hfresh,hnew row' hrow⟩
  · intro row hrow
    rcases h.kept row hrow with ⟨row',hrow',hkey,hmove⟩ | hrow'
    · exact .inl ⟨row',hrow',hkey,hmoves row row' hmove⟩
    · exact .inr (hgone row hrow')

/-- Two changes after each other, none of which inserts. -/
lemma Evolves.trans (h : Evolves key moves gone (fun _ => False) rows rows')
    (h' : Evolves key moves gone (fun _ => False) rows' rows'')
    (hmoves : ∀ row row' row'', moves row row' → moves row' row'' → moves row row'')
    (hgone : ∀ row row', moves row row' → gone row' → gone row) :
    Evolves key moves gone (fun _ => False) rows rows'' := by
  have hrow : ∀ row'' ∈ rows'', ∃ row ∈ rows, key row'' = key row ∧ moves row row'' := by
    intro row'' hrow''
    obtain ⟨row',hrow',hkey',hmove'⟩ := (h'.row row'' hrow'').resolve_right And.right
    obtain ⟨row,hrow,hkey,hmove⟩ := (h.row row' hrow').resolve_right And.right
    exact ⟨row,hrow,hkey'.trans hkey,hmoves _ _ _ hmove hmove'⟩
  refine ⟨fun row'' hrow'' => .inl (hrow row'' hrow''),?_,?_,
    fun hnodup => h'.nodup (h.nodup hnodup)⟩
  · intro row' hrow' _ _ hfresh
    obtain ⟨row,hmem,hkey,-⟩ := hrow row' hrow'
    exact absurd (List.mem_map.mpr ⟨row,hmem,hkey.symm⟩) hfresh
  · intro row hmem
    rcases h.kept row hmem with ⟨row',hrow',hkey,hmove⟩ | hrow'
    · rcases h'.kept row' hrow' with ⟨row'',hrow'',hkey',hmove'⟩ | hgone'
      · exact .inl ⟨row'',hrow'',hkey'.trans hkey,hmoves _ _ _ hmove hmove'⟩
      · exact .inr (hgone _ _ hmove hgone')
    · exact .inr hrow'

end Evolves

end Linea.Tables
