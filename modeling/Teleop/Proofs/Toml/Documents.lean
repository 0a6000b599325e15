import Teleop.Proofs.Toml.Lines

/-!
# Documents read back

Plain values, and behind them tables of plain values, are written to a document that is read as the
same table.
-/

namespace Teleop.Toml

open Draft

variable {key : String} {rest : List Char} {d' : Draft}

/-! ## Tables that grow -/

/-- Plain values as entries. -/
def plainEntries (t : Table) : Entries := t.map fun (key, v) => (key, .value v)

/-- The place where the values of a table go. A value under a new key comes behind the others. -/
def Fills (place : Table → Draft) : Prop :=
  ∀ (done : Table) (key : String) (v : Value), key ∉ done.map Prod.fst →
    ∃ es, (place done).entries.addAt (place done).opened [] key v = some es ∧
      { place done with entries := es } = place (done ++ [(key, v)])

theorem lookup_of_not_mem {α : Type} {entries : List (String × α)} (h : key ∉ entries.map Prod.fst) :
    entries.lookup key = none := by
  rw [List.lookup_eq_none_iff]
  intro p hp
  rw [bne_iff_ne]
  rintro rfl
  exact h (List.mem_map_of_mem hp)

theorem keys_plainEntries (t : Table) : (plainEntries t).map Prod.fst = t.map Prod.fst := by
  simp [plainEntries]

theorem plainEntries_concat (done : Table) (key : String) (v : Value) :
    plainEntries (done ++ [(key, v)]) = plainEntries done ++ [(key, .value v)] := by
  simp [plainEntries]

theorem lookup_plainEntries {done : Table} (h : key ∉ done.map Prod.fst) :
    (plainEntries done).lookup key = none :=
  lookup_of_not_mem (by rwa [keys_plainEntries])

theorem fills_top : Fills fun done => { entries := plainEntries done } := by
  intro done key v hkey
  refine ⟨plainEntries done ++ [(key, .value v)], ?_, ?_⟩
  · simp [Entries.addAt, Entries.change, Entries.add, lookup_plainEntries hkey]
  · simp only [plainEntries_concat]

theorem replace_last {es : Entries} {item item' : Item} (h : key ∉ es.map Prod.fst) :
    Entries.replace (es ++ [(key, item)]) key item' = es ++ [(key, item')] := by
  have hsame : Entries.replace es key item' = es := by
    apply (List.map_congr_left _).trans (List.map_id es)
    intro p hp
    have hne : p.1 ≠ key := by
      rintro rfl
      exact h (List.mem_map_of_mem hp)
    exact if_neg hne
  unfold Entries.replace at *
  rw [List.map_append, hsame]
  simp

theorem fills_section {name : String} {es : Entries} (h : name ∉ es.map Prod.fst) :
    Fills fun done =>
      { entries := es ++ [(name, .table .header (plainEntries done))], opened := [name] } := by
  intro done key v hkey
  refine ⟨es ++ [(name, .table .header (plainEntries done ++ [(key, .value v)]))], ?_, ?_⟩
  · simp [Entries.addAt, Entries.change, Entries.add, lookup_plainEntries hkey, List.lookup_append,
      lookup_of_not_mem h, replace_last h]
  · simp only [plainEntries_concat]

/-! ## Whole tables -/

/-- A table of plain values under bare keys, each key once. -/
structure IsPlainTable (t : Table) : Prop where
  once : (t.map Prod.fst).Nodup
  bare : ∀ p ∈ t, IsBareKey p.1
  scalar : ∀ p ∈ t, p.2.IsScalar

/-- The line of a value. -/
def pairLine (p : String × Value) : String := keyText p.1 ++ " = " ++ p.2.text ++ "\n"

theorem reads_pairs {place : Table → Draft} (hplace : Fills place) (done : Table) {t : Table}
    (ht : IsPlainTable (done ++ t)) (h : (place (done ++ t)).Reads rest d') :
    (place done).Reads ((String.join (t.map pairLine)).toList ++ rest) d' := by
  induction t generalizing done with
  | nil => simpa using h
  | cons p t ih =>
    obtain ⟨key, v⟩ := p
    have hkey : key ∉ done.map Prod.fst := by
      have honce := ht.once
      rw [List.map_append, List.nodup_append] at honce
      exact fun hmem => honce.2.2 key hmem key (by simp) rfl
    obtain ⟨es, hadd, hnext⟩ := hplace done key v hkey
    have hline := line?_pair (ht.bare (key, v) (by simp)) (ht.scalar (key, v) (by simp)) hadd
      ((String.join (t.map pairLine)).toList ++ rest)
    rw [hnext] at hline
    rw [List.append_cons] at ht h
    rw [List.map_cons, String.join_cons, String.toList_append, List.append_assoc]
    exact reads_line _ (by simp [pairLine]) hline (ih _ ht h)

theorem plainLines_eq {t : Table} (ht : ∀ p ∈ t, p.2.IsScalar) : plainLines t = t.map pairLine := by
  have hplain : t.filter (fun (_, v) => v.table?.isNone) = t := by
    rw [List.filter_eq_self]
    intro p hp
    have hscalar := ht p hp
    obtain ⟨key, v⟩ := p
    cases v <;> first | rfl | exact hscalar.elim
  unfold plainLines
  rw [hplain]
  rfl

theorem reads_section {es : Entries} {name : String} {t : Table} (opened : List String)
    (hname : name ∉ es.map Prod.fst) (hbare : IsBareKey name) (ht : IsPlainTable t)
    (h : Reads ⟨es ++ [(name, .table .header (plainEntries t))], [name]⟩ rest d') :
    Reads ⟨es, opened⟩ ((String.join (sectionLines name t)).toList ++ rest) d' := by
  have hopen : Entries.openTable [] name es = some (es ++ [(name, .table .header [])]) := by
    simp [Entries.openTable, Entries.change, lookup_of_not_mem hname]
  have hline := line?_header (d := ⟨es, opened⟩) hbare hopen
    ((String.join (plainLines t)).toList ++ rest)
  unfold sectionLines
  rw [String.join_cons, String.toList_append, List.append_assoc]
  refine reads_line _ (by simp) hline ?_
  rw [plainLines_eq ht.scalar]
  exact reads_pairs (fills_section hname) [] ht h

def sectionText (s : String × Table) : List Char := (String.join (sectionLines s.1 s.2)).toList

def sectionEntry (s : String × Table) : String × Item := (s.1, .table .header (plainEntries s.2))

theorem reads_sections (es : Entries) {ss : List (String × Table)} (opened : List String)
    (honce : (es.map Prod.fst ++ ss.map Prod.fst).Nodup) (hbare : ∀ s ∈ ss, IsBareKey s.1)
    (hplain : ∀ s ∈ ss, IsPlainTable s.2) :
    ∃ opened', Reads ⟨es, opened⟩ (Text.joined '\n' (ss.map sectionText))
      ⟨es ++ ss.map sectionEntry, opened'⟩ := by
  induction ss generalizing es opened with
  | nil => exact ⟨opened, by simpa [Text.joined] using reads_nil _⟩
  | cons s ss ih =>
    have hname : s.1 ∉ es.map Prod.fst := by
      rw [List.nodup_append] at honce
      exact fun hmem => honce.2.2 s.1 hmem s.1 (by simp) rfl
    have honce' : ((es ++ [sectionEntry s]).map Prod.fst ++ ss.map Prod.fst).Nodup := by
      simpa [sectionEntry] using honce
    obtain ⟨opened', hrest⟩ := ih (es ++ [sectionEntry s]) [s.1] honce'
      (fun s' hs' => hbare s' (List.mem_cons_of_mem _ hs'))
      (fun s' hs' => hplain s' (List.mem_cons_of_mem _ hs'))
    rw [List.append_assoc, List.singleton_append, ← List.map_cons] at hrest
    refine ⟨opened', ?_⟩
    cases ss with
    | nil =>
      rw [List.map_singleton, ← List.append_nil (Text.joined _ _)]
      exact reads_section opened hname (hbare s (by simp)) (hplain s (by simp)) hrest
    | cons s' ss =>
      rw [List.map_cons, Text.joined_cons (by simp)]
      exact reads_section opened hname (hbare s (by simp)) (hplain s (by simp)) (reads_blank hrest)

/-! ## Whole documents -/

/-- Plain values and behind them tables of plain values. -/
def document (t : Table) (ss : List (String × Table)) : Table :=
  t ++ ss.map fun (name, inner) => (name, .table inner)

structure IsDocument (t : Table) (ss : List (String × Table)) : Prop where
  once : (t.map Prod.fst ++ ss.map Prod.fst).Nodup
  plain : IsPlainTable t
  bare : ∀ s ∈ ss, IsBareKey s.1
  tables : ∀ s ∈ ss, IsPlainTable s.2

variable {t : Table} {ss : List (String × Table)}

theorem table?_of_isScalar {v : Value} (hv : v.IsScalar) : v.table? = none := by
  cases v <;> first | rfl | exact hv.elim

theorem plainLines_document (h : IsDocument t ss) :
    plainLines (document t ss) = t.map pairLine := by
  have hsections : plainLines (ss.map fun (name, inner) => (name, .table inner)) = [] := by
    unfold plainLines
    rw [List.filter_eq_nil_iff.mpr, List.map_nil]
    intro p hp
    obtain ⟨s, -, rfl⟩ := List.mem_map.mp hp
    simp [Value.table?]
  have happend : plainLines (document t ss) =
      plainLines t ++ plainLines (ss.map fun (name, inner) => (name, .table inner)) := by
    simp [plainLines, document]
  rw [happend, hsections, List.append_nil, plainLines_eq h.plain.scalar]

theorem sections_document (h : IsDocument t ss) :
    (document t ss).filterMap (fun (key, v) => v.table?.map (sectionLines key)) =
      ss.map fun s => sectionLines s.1 s.2 := by
  have hplain : t.filterMap (fun (key, v) => v.table?.map (sectionLines key)) = [] := by
    rw [List.filterMap_eq_nil_iff]
    intro p hp
    simp [table?_of_isScalar (h.plain.scalar p hp)]
  unfold document
  rw [List.filterMap_append, hplain, List.nil_append, List.filterMap_map]
  exact congrFun List.filterMap_eq_map ss

theorem toList_write_document (h : IsDocument t ss) :
    (write (document t ss)).toList =
      Text.joined '\n' ((if t = [] then [] else [(String.join (t.map pairLine)).toList]) ++
        ss.map sectionText) := by
  have hsections : (ss.map fun s => sectionLines s.1 s.2).filter (!·.isEmpty) =
      ss.map fun s => sectionLines s.1 s.2 := by
    rw [List.filter_eq_self]
    intro lines hlines
    obtain ⟨s, -, rfl⟩ := List.mem_map.mp hlines
    rfl
  unfold write
  simp only
  rw [sections_document h, plainLines_document h, List.filter_cons, hsections,
    show "\n" = String.singleton '\n' from rfl, Text.toList_intercalate]
  congr 1
  split_ifs <;> simp_all [sectionText, Function.comp_def]

theorem reads_document (h : IsDocument t ss) :
    ∃ opened, Draft.Reads {} (write (document t ss)).toList
      ⟨plainEntries t ++ ss.map sectionEntry, opened⟩ := by
  have honce : ((plainEntries t).map Prod.fst ++ ss.map Prod.fst).Nodup := by
    rw [keys_plainEntries]
    exact h.once
  obtain ⟨opened, hsections⟩ := reads_sections _ [] honce h.bare h.tables
  refine ⟨opened, ?_⟩
  rw [toList_write_document h]
  split_ifs with ht
  · subst ht
    exact hsections
  · cases ss with
    | nil =>
      rw [List.map_nil, List.append_nil, ← List.append_nil (Text.joined _ _)]
      exact reads_pairs fills_top [] h.plain hsections
    | cons s ss =>
      rw [List.singleton_append, Text.joined_cons (by simp)]
      exact reads_pairs fills_top [] h.plain (reads_blank hsections)

theorem line?_mark (d : Draft) (cs : List Char) : d.line? ('\ufeff' :: cs) = none := rfl

theorem dropByteOrderMark_of_reads {d d' : Draft} {cs : List Char} (h : d.Reads cs d') :
    dropByteOrderMark cs = cs := by
  unfold dropByteOrderMark
  split
  · rename_i rest
    have hlines : d.lines? (rest.length + 1) ('\ufeff' :: rest) = some d' := h _ (Nat.le_refl _)
    unfold lines? at hlines
    rw [line?_mark] at hlines
    cases hlines
  · rfl

theorem toTable_append (es es' : Entries) :
    Entries.toTable (es ++ es') = Entries.toTable es ++ Entries.toTable es' := by
  induction es with
  | nil => rfl
  | cons e es ih => rw [List.cons_append, Entries.toTable, ih, Entries.toTable, List.cons_append]

theorem toTable_plainEntries (t : Table) : Entries.toTable (plainEntries t) = t := by
  induction t with
  | nil => rfl
  | cons p t ih =>
    rw [plainEntries, List.map_cons, Entries.toTable, ← plainEntries, ih]
    rfl

theorem toTable_sections (ss : List (String × Table)) :
    Entries.toTable (ss.map sectionEntry) = ss.map fun (name, inner) => (name, .table inner) := by
  induction ss with
  | nil => rfl
  | cons s ss ih =>
    rw [List.map_cons, sectionEntry, Entries.toTable, ih, Item.toValue, toTable_plainEntries]
    rfl

theorem read?_write (h : IsDocument t ss) :
    read? (write (document t ss)) = some (document t ss) := by
  obtain ⟨opened, hreads⟩ := reads_document h
  unfold read?
  simp only
  rw [dropByteOrderMark_of_reads hreads, hreads _ (Nat.le_succ _), Option.map_some, toTable_append,
    toTable_plainEntries, toTable_sections]
  rfl

end Teleop.Toml
