/-
# Paths and what `InMemoryFileStore` lists

A path by its characters and by its names: a stored path lies below `p` when its characters
start with `p` and a slash (`below_iff`).  The dictionary is searched for paths that merely
start with `p`; `mem_list_iff` says what such a path adds to the listing.
-/
import OpenHands.FileStores

namespace OpenHands.Stores

/-! ## Paths by their names -/

namespace RelPath

variable {p q : RelPath} {name r : Path} {rest : List Path}

theorem splitOn_chars (p : RelPath) : p.chars.splitOn '/' = p.parts :=
  List.splitOn_intercalate '/' (fun name hname => (p.valid name hname).2.1) p.ne_nil

theorem parts_injective (h : p.parts = q.parts) : p = q := by
  cases p
  cases q
  cases h
  rfl

theorem chars_injective (h : p.chars = q.chars) : p = q := by
  apply parts_injective
  rw [← splitOn_chars, h, splitOn_chars]

theorem chars_ne_nil : p.chars ≠ [] := by
  intro h
  have hparts := p.splitOn_chars
  rw [h] at hparts
  have hname : [] ∈ p.parts := by
    rw [← hparts]
    exact List.mem_singleton.mpr rfl
  exact (p.valid [] hname).1 rfl

/-- A path does not end with a slash. -/
theorem getLast?_chars : p.chars.getLast? ≠ some '/' := by
  intro h
  have hparts := p.splitOn_chars
  rw [← List.dropLast_append_getLast? '/' h, List.splitOn_append_cons_self] at hparts
  have hname : [] ∈ p.parts := by
    rw [← hparts]
    exact List.mem_append_right _ (List.mem_singleton.mpr rfl)
  exact (p.valid [] hname).1 rfl

/-- What stands behind a path and a slash are the further names. -/
theorem parts_of_chars (h : q.chars = p.chars ++ '/' :: r) : q.parts = p.parts ++ r.splitOn '/' := by
  rw [← splitOn_chars, h, List.splitOn_append_cons_self, splitOn_chars]

theorem chars_of_parts (h : q.parts = p.parts ++ rest) (hrest : rest ≠ []) :
    q.chars = p.chars ++ '/' :: ['/'].intercalate rest := by
  have hvalid : ∀ name ∈ rest, '/' ∉ name := by
    intro name hname
    exact (q.valid name (h ▸ List.mem_append_right _ hname)).2.1
  have hsplit : (p.chars ++ '/' :: ['/'].intercalate rest).splitOn '/' = q.parts := by
    rw [List.splitOn_append_cons_self, splitOn_chars, List.splitOn_intercalate '/' hvalid hrest, h]
  have hjoin : ['/'].intercalate ((p.chars ++ '/' :: ['/'].intercalate rest).splitOn '/')
      = p.chars ++ '/' :: ['/'].intercalate rest := List.intercalate_splitOn '/'
  rw [hsplit] at hjoin
  exact hjoin

/-- A path lies below another one when it starts with that path and a slash. -/
theorem below_iff : (p.chars ++ ['/']) <+: q.chars ↔ p.parts <+: q.parts ∧ p.parts ≠ q.parts := by
  constructor
  · rintro ⟨r, hr⟩
    rw [List.append_assoc, List.singleton_append] at hr
    rw [parts_of_chars hr.symm]
    refine ⟨List.prefix_append _ _, fun h => ?_⟩
    exact List.splitOn_ne_nil '/' r (List.self_eq_append_right.mp h)
  · rintro ⟨⟨rest, hrest⟩, hne⟩
    have hrest' : rest ≠ [] := by
      rintro rfl
      exact hne (by rw [← hrest, List.append_nil])
    rw [chars_of_parts hrest.symm hrest']
    exact ⟨['/'].intercalate rest, by simp⟩

/-- The path of a name in a directory. -/
theorem pathJoin_chars (hname : name.head? ≠ some '/') : pathJoin p.chars name = p.chars ++ '/' :: name := by
  unfold pathJoin
  rw [if_neg hname, if_neg]
  rintro (h | h)
  · exact chars_ne_nil h
  · exact getLast?_chars h

end RelPath

/-! ## What a stored path adds to a listing -/

/-- The names of a stored path behind the path that is listed. -/
def namesBehind (path q : Path) : List Path :=
  let parts := (q.drop path.length).splitOn '/'
  if parts.head? = some [] then parts.tail else parts

/-- The entry of the listing: the stored path, or the directory of its first name. -/
def entryOf (path q : Path) : Path :=
  match namesBehind path q with
  | name :: _ :: _ => path ++ '/' :: name ++ ['/']
  | _ => q

/-- A name that follows a path, behind a slash or directly. -/
structure Follows (path name q : Path) (rest : Path) : Prop where
  ne_nil : name ≠ []
  noSlash : '/' ∉ name
  eq : q = path ++ '/' :: (name ++ rest) ∨ q = path ++ (name ++ rest)

section Entry

variable {path name q rest : Path}

theorem splitOn_drop_of_follows (h : Follows path name q rest) :
    namesBehind path q = (name ++ rest).splitOn '/' := by
  have hhead : ((name ++ rest).splitOn '/').head? ≠ some [] := by
    obtain ⟨c, cs, hname⟩ := List.exists_cons_of_ne_nil h.ne_nil
    have hc : c ≠ '/' := fun hc => h.noSlash (by rw [hname, hc]; exact List.mem_cons_self)
    rw [hname, List.cons_append, List.splitOn_cons_eq_if_modifyHead, if_neg (by simpa using hc),
      List.head?_modifyHead]
    cases ((cs ++ rest).splitOn '/').head? with
    | none => simp
    | some _ => simp
  unfold namesBehind
  rcases h.eq with rfl | rfl
  · rw [List.drop_left]
    have hsplit : ('/' :: (name ++ rest)).splitOn '/' = [] :: (name ++ rest).splitOn '/' :=
      List.splitOn_append_cons_self [] (name ++ rest)
    rw [hsplit]
    rfl
  · rw [List.drop_left]
    exact if_neg hhead

/-- The last name: the entry is the stored path itself. -/
theorem namesBehind_of_last (h : Follows path name q []) : namesBehind path q = [name] := by
  rw [splitOn_drop_of_follows h, List.append_nil, List.splitOn_eq_singleton h.noSlash]

/-- More names: the entry is the directory of the first one. -/
theorem namesBehind_of_more (h : Follows path name q ('/' :: rest)) :
    namesBehind path q = name :: rest.splitOn '/' := by
  rw [splitOn_drop_of_follows h, List.splitOn_append_cons_self_of_not_mem h.noSlash]

theorem entryOf_of_last (h : Follows path name q []) : entryOf path q = q := by
  unfold entryOf
  rw [namesBehind_of_last h]

theorem entryOf_of_more (h : Follows path name q ('/' :: rest)) :
    entryOf path q = path ++ '/' :: name ++ ['/'] := by
  unfold entryOf
  rw [namesBehind_of_more h]
  obtain ⟨first, more, hmore⟩ := List.exists_cons_of_ne_nil (List.splitOn_ne_nil '/' rest)
  rw [hmore]

/-- A text up to its first slash. -/
theorem split_first (r : Path) : ∃ x, '/' ∉ x ∧ (r = x ∨ ∃ s, r = x ++ '/' :: s) := by
  induction r with
  | nil => exact ⟨[], List.not_mem_nil, Or.inl rfl⟩
  | cons c r ih =>
      by_cases hc : c = '/'
      · exact ⟨[], List.not_mem_nil, Or.inr ⟨r, by rw [hc, List.nil_append]⟩⟩
      · obtain ⟨x, hx, hr⟩ := ih
        refine ⟨c :: x, List.not_mem_cons_of_ne_of_not_mem (Ne.symm hc) hx, ?_⟩
        rcases hr with rfl | ⟨s, rfl⟩
        · exact Or.inl rfl
        · exact Or.inr ⟨s, rfl⟩

/-- A stored path that starts with another one has a name there. -/
theorem follows_of_prefix {p q : RelPath} (hleads : p.chars <+: q.chars) (hne : q ≠ p) :
    ∃ name, Follows p.chars name q.chars [] ∨ ∃ rest, Follows p.chars name q.chars ('/' :: rest) := by
  obtain ⟨r, hr⟩ := hleads
  have hr_ne : r ≠ [] := by
    rintro rfl
    exact hne (RelPath.chars_injective (by rw [← hr, List.append_nil]))
  have hfirst : ∀ r : Path, r ≠ [] → r.head? ≠ some '/' →
      (q.chars = p.chars ++ '/' :: r ∨ q.chars = p.chars ++ r) →
      ∃ name, Follows p.chars name q.chars [] ∨
        ∃ rest, Follows p.chars name q.chars ('/' :: rest) := by
    intro r hr_ne hhead heq
    obtain ⟨x, hx, rfl | ⟨s, rfl⟩⟩ := split_first r
    · exact ⟨r, Or.inl ⟨hr_ne, hx, by rwa [List.append_nil]⟩⟩
    · have hx_ne : x ≠ [] := by
        rintro rfl
        exact hhead rfl
      exact ⟨x, Or.inr ⟨s, hx_ne, hx, heq⟩⟩
  cases r with
  | nil => exact absurd rfl hr_ne
  | cons c r =>
      by_cases hc : c = '/'
      · subst hc
        have hparts := RelPath.parts_of_chars hr.symm
        have hvalid : ∀ name ∈ r.splitOn '/', name ≠ [] := by
          intro name hname
          exact (q.valid name (hparts ▸ List.mem_append_right _ hname)).1
        refine hfirst r ?_ ?_ (Or.inl hr.symm)
        · rintro rfl
          exact hvalid [] (List.mem_singleton.mpr rfl) rfl
        · intro hhead
          cases r with
          | nil => cases hhead
          | cons c r =>
              cases hhead
              refine hvalid [] ?_ rfl
              rw [show ('/' :: r).splitOn '/' = [] :: r.splitOn '/' from
                List.splitOn_append_cons_self [] r]
              exact List.mem_cons_self
      · refine hfirst (c :: r) hr_ne ?_ (Or.inr hr.symm)
        simpa using hc

end Entry

/-! ## The loop of `list` -/

namespace InMemoryFileStore

variable {p q : RelPath} {files : List Path}

/-- A path that is stored itself cannot be listed. -/
theorem listStep_self (p : RelPath) (files : List Path) :
    listStep p.chars files p.chars = .error .indexError := by
  unfold listStep
  rw [if_pos (List.prefix_refl _), List.drop_length]
  rfl

theorem listStep_of_not_below (hleads : ¬p.chars <+: q.chars) :
    listStep p.chars files q.chars = .ok files := if_neg hleads

/-- A stored path that starts with the listed one adds its entry. -/
theorem listStep_of_below (hleads : p.chars <+: q.chars) (hne : q ≠ p) (hnew : q.chars ∉ files) :
    listStep p.chars files q.chars
      = .ok (if entryOf p.chars q.chars ∈ files then files
          else files ++ [entryOf p.chars q.chars]) := by
  obtain ⟨name, hlast | ⟨rest, hmore⟩⟩ := follows_of_prefix hleads hne
  · have hnames := namesBehind_of_last hlast
    unfold namesBehind at hnames
    rw [entryOf_of_last hlast, if_neg hnew]
    unfold listStep
    rw [if_pos hleads]
    simp only [hnames]
  · obtain ⟨first, more, hrest⟩ := List.exists_cons_of_ne_nil (List.splitOn_ne_nil '/' rest)
    have hhead : name.head? ≠ some '/' :=
      fun h => hmore.noSlash (List.mem_of_mem_head? (Option.mem_def.mpr h))
    have hend : (p.chars ++ '/' :: name).getLast? ≠ some '/' := by
      rw [List.getLast?_append, List.getLast?_cons, Option.some_or]
      intro h
      have hmem := List.mem_of_getLast? (List.getLast?_cons.trans h)
      rcases List.mem_cons.mp hmem with h' | h'
      · cases hname : name.getLast? with
        | none => exact hmore.ne_nil (List.getLast?_eq_none_iff.mp hname)
        | some c =>
            rw [hname] at h
            cases h
            exact hmore.noSlash (List.mem_of_getLast? hname)
      · exact hmore.noSlash h'
    have hnames := namesBehind_of_more hmore
    unfold namesBehind at hnames
    rw [entryOf_of_more hmore]
    unfold listStep
    rw [if_pos hleads]
    simp only [hnames, hrest]
    rw [RelPath.pathJoin_chars hhead, if_neg hend]

/-- The loop raises when the listed path is stored itself. -/
theorem foldlM_listStep_of_mem {keys : List Path} (hmem : p.chars ∈ keys) (files : List Path) :
    ∃ error, keys.foldlM (listStep p.chars) files = .error error := by
  induction keys generalizing files with
  | nil => exact absurd hmem List.not_mem_nil
  | cons key keys ih =>
      rw [List.foldlM_cons]
      rcases List.mem_cons.mp hmem with rfl | hmem
      · exact ⟨.indexError, by rw [listStep_self]; rfl⟩
      · cases listStep p.chars files key with
        | error error => exact ⟨error, rfl⟩
        | ok files => exact ih hmem files

/-- Otherwise it collects the entries, each once. -/
theorem foldlM_listStep {keys : List Path} (hkeys : ∀ key ∈ keys, ∃ q : RelPath, key = q.chars)
    (hnodup : keys.Nodup) (hself : p.chars ∉ keys) (hfiles : files.Nodup)
    (hnew : ∀ key ∈ keys, key ∉ files) :
    ∃ listed, keys.foldlM (listStep p.chars) files = .ok listed ∧ listed.Nodup ∧
      ∀ y, y ∈ listed ↔ y ∈ files ∨ ∃ key ∈ keys, p.chars <+: key ∧ y = entryOf p.chars key := by
  induction keys generalizing files with
  | nil => exact ⟨files, rfl, hfiles, by simp⟩
  | cons key keys ih =>
      rw [List.forall_mem_cons] at hkeys hnew
      rw [List.nodup_cons] at hnodup
      rw [List.mem_cons, not_or] at hself
      obtain ⟨⟨q, rfl⟩, hkeys⟩ := hkeys
      have hne : q ≠ p := fun h => hself.1 (by rw [h])
      rw [List.foldlM_cons]
      by_cases hleads : p.chars <+: q.chars
      · rw [listStep_of_below hleads hne hnew.1]
        have hentry : ∀ key ∈ keys, key ≠ entryOf p.chars q.chars := by
          intro key hkey heq
          obtain ⟨name, hlast | ⟨rest, hmore⟩⟩ := follows_of_prefix hleads hne
          · rw [entryOf_of_last hlast] at heq
            exact hnodup.1 (heq ▸ hkey)
          · obtain ⟨q', rfl⟩ := hkeys key hkey
            rw [entryOf_of_more hmore] at heq
            exact RelPath.getLast?_chars (by rw [heq, List.getLast?_concat])
        by_cases hmem : entryOf p.chars q.chars ∈ files
        · obtain ⟨listed, hok, hlisted, hiff⟩ :=
            ih hkeys hnodup.2 hself.2 hfiles hnew.2
          refine ⟨listed, ?_, hlisted, fun y => ?_⟩
          · rw [if_pos hmem]
            exact hok
          · rw [hiff, List.exists_mem_cons_iff]
            constructor
            · rintro (h | h)
              · exact Or.inl h
              · exact Or.inr (Or.inr h)
            · rintro (h | ⟨-, rfl⟩ | h)
              · exact Or.inl h
              · exact Or.inl hmem
              · exact Or.inr h
        · have hfiles' : (files ++ [entryOf p.chars q.chars]).Nodup :=
            List.nodup_append.mpr ⟨hfiles, List.nodup_singleton _, fun a ha b hb => by
              rw [List.mem_singleton.mp hb]
              rintro rfl
              exact hmem ha⟩
          have hnew' : ∀ key ∈ keys, key ∉ files ++ [entryOf p.chars q.chars] := by
            intro key hkey h
            rcases List.mem_append.mp h with h | h
            · exact hnew.2 key hkey h
            · exact hentry key hkey (List.mem_singleton.mp h)
          obtain ⟨listed, hok, hlisted, hiff⟩ := ih hkeys hnodup.2 hself.2 hfiles' hnew'
          refine ⟨listed, ?_, hlisted, fun y => ?_⟩
          · rw [if_neg hmem]
            exact hok
          · rw [hiff, List.exists_mem_cons_iff, List.mem_append, List.mem_singleton, or_assoc]
            simp [hleads]
      · rw [listStep_of_not_below hleads]
        obtain ⟨listed, hok, hlisted, hiff⟩ := ih hkeys hnodup.2 hself.2 hfiles hnew.2
        refine ⟨listed, hok, hlisted, fun y => ?_⟩
        rw [hiff, List.exists_mem_cons_iff]
        simp [hleads]

end InMemoryFileStore

end OpenHands.Stores
