import Mathlib.Tactic.Tauto
import Pipework.Disk.Machine
import Pipework.Proofs.Disk.Path
import Pipework.Proofs.Except

/-!
# Folders of a machine
-/

namespace Pipework.Disk

/-! ## Trees -/

namespace Tree

/-- Whether there is a folder at the end of a way. -/
def HasFolder (t : Tree) (way : List String) : Prop :=
  ∃ entries, t.get? way = some (.folder entries)

lemma hasFolder_iff {t : Tree} {way : List String} :
    t.HasFolder way ↔ (t.get? way).any isFolder = true := by
  unfold HasFolder
  cases t.get? way with
  | none => simp
  | some u => cases u <;> simp [isFolder]

instance (t : Tree) (way : List String) : Decidable (t.HasFolder way) :=
  decidable_of_iff _ hasFolder_iff.symm

lemma get?_append (t : Tree) (way rest : List String) :
    t.get? (way ++ rest) = (t.get? way).bind (get? rest) := by
  induction way generalizing t with
  | nil => rfl
  | cons name way ih =>
    cases t with
    | folder entries =>
      rw [List.cons_append, get?, get?, Option.bind_assoc]
      exact Option.bind_congr fun t _ => ih t
    | text => simp [get?]
    | bytes => simp [get?]

/-- What is in a folder. -/
lemma get?_entry {t : Tree} {way : List String} {entries : List (String × Tree)}
    (h : t.get? way = some (.folder entries)) (name : String) :
    t.get? (way ++ [name]) = Named.get? name entries := by
  rw [get?_append, h, Option.bind_some, get?]
  cases Named.get? name entries <;> rfl

/-- The entries of a folder after one was put or removed. -/
def setEntry (name : String) (new : Option Tree) (entries : List (String × Tree)) :
    List (String × Tree) :=
  match new with
  | some u => Named.insert name u entries
  | none => Named.erase name entries

/-- Only the entry of the name changes. -/
lemma get?_setEntry (other name : String) (new : Option Tree) (entries : List (String × Tree)) :
    Named.get? other (setEntry name new entries) =
      if name = other then new else Named.get? other entries := by
  cases new with
  | none => exact Named.get?_erase other name entries
  | some u => exact Named.get?_insert other name u entries

lemma put_cons {new : Option Tree} {name : String} {way : List String} (hne : way ≠ [])
    (entries : List (String × Tree)) :
    put new (name :: way) (.folder entries) =
      match Named.get? name entries with
      | some t => .folder (Named.insert name (put new way t) entries)
      | none => .folder entries := by
  cases way with
  | nil => contradiction
  | cons next way => rfl

/-- Only its own entry of a folder is changed. -/
lemma get?_put {t : Tree} {way : List String} {entries : List (String × Tree)}
    (h : t.get? way = some (.folder entries)) (name : String) (new : Option Tree) :
    (put new (way ++ [name]) t).get? way = some (.folder (setEntry name new entries)) := by
  induction way generalizing t with
  | nil =>
    obtain rfl := Option.some.inj h
    cases new <;> rfl
  | cons first way ih =>
    cases t with
    | folder above =>
      rw [get?] at h
      cases hfirst : Named.get? first above with
      | none => simp [hfirst] at h
      | some u =>
        rw [hfirst, Option.bind_some] at h
        rw [List.cons_append, put_cons (by simp), hfirst]
        simp only
        rw [get?, Named.get?_insert, if_pos rfl, Option.bind_some]
        exact ih h
    | text => simp [get?] at h
    | bytes => simp [get?] at h

lemma hasFolder_cons {entries : List (String × Tree)} {name : String} {way : List String} :
    (folder entries).HasFolder (name :: way) ↔
      ∃ u, Named.get? name entries = some u ∧ u.HasFolder way := by
  unfold HasFolder
  rw [get?]
  cases Named.get? name entries <;> simp

/-- The folders above a folder are folders. -/
lemma HasFolder.of_append {t : Tree} {way rest : List String} (h : t.HasFolder (way ++ rest)) :
    t.HasFolder way := by
  obtain ⟨entries, hget⟩ := h
  rw [get?_append] at hget
  obtain ⟨u, hu, hrest⟩ := Option.bind_eq_some_iff.1 hget
  cases rest with
  | nil => exact ⟨entries, by rw [hu]; exact hrest⟩
  | cons name rest =>
    cases u with
    | folder entries' => exact ⟨entries', hu⟩
    | text => simp [get?] at hrest
    | bytes => simp [get?] at hrest

lemma hasFolder_setEntry {entries : List (String × Tree)} {name : String} {other : List String}
    (hnot : ¬(folder entries).HasFolder [name]) (h : (folder entries).HasFolder other)
    (new : Option Tree) : (folder (setEntry name new entries)).HasFolder other := by
  cases other with
  | nil => exact ⟨_, rfl⟩
  | cons first rest =>
    obtain ⟨u, hu, hrest⟩ := hasFolder_cons.1 h
    have hne : name ≠ first := by
      rintro rfl
      have hlong : (folder entries).HasFolder ([name] ++ rest) := hasFolder_cons.2 ⟨u, hu, hrest⟩
      exact hnot hlong.of_append
    exact hasFolder_cons.2 ⟨u, by rw [get?_setEntry, if_neg hne, hu], hrest⟩

/-- Folders stay where they are, unless one is replaced. -/
lemma HasFolder.put {t : Tree} {way : List String} (hne : way ≠ []) (hnot : ¬t.HasFolder way)
    (new : Option Tree) {other : List String} (h : t.HasFolder other) :
    (Tree.put new way t).HasFolder other := by
  induction way generalizing t other with
  | nil => contradiction
  | cons name way ih =>
    cases t with
    | text => cases way <;> exact h
    | bytes => cases way <;> exact h
    | folder entries =>
      by_cases hway : way = []
      · subst hway
        have hset := hasFolder_setEntry hnot h new
        cases new <;> exact hset
      · rw [put_cons hway]
        cases hname : Named.get? name entries with
        | none => exact h
        | some u =>
          cases other with
          | nil => exact ⟨_, rfl⟩
          | cons first rest =>
            obtain ⟨v, hv, hrest⟩ := hasFolder_cons.1 h
            refine hasFolder_cons.2 ?_
            rw [Named.get?_insert]
            by_cases hfirst : name = first
            · subst hfirst
              obtain rfl := Option.some.inj (hname.symm.trans hv)
              have hdeep : ¬u.HasFolder way := fun hu => hnot (hasFolder_cons.2 ⟨u, hname, hu⟩)
              exact ⟨_, if_pos rfl, ih hway hdeep hrest⟩
            · exact ⟨v, by rw [if_neg hfirst, hv], hrest⟩

end Tree

/-! ## Ways to folders -/

namespace Machine

/-- The folder at the end of some names, if all of them lead through folders. -/
def enter (root : Tree) (way : List String) : List String → Option (List String)
  | [] => if root.HasFolder way then some way else none
  | name :: rest =>
    if ¬root.HasFolder way then none
    else if IsIdle name then enter root way rest
    else if name = ".." then enter root way.dropLast rest
    else if nameLimit < name.utf8ByteSize then none
    else enter root (way ++ [name]) rest

variable {root : Tree} {way target : List String}

lemma enter_eq_none (h : ¬root.HasFolder way) (path : List String) :
    enter root way path = none := by
  cases path <;> simp [enter, h]

lemma enter_cons (h : root.HasFolder way) (name : String) (path : List String) :
    enter root way (name :: path) =
      if IsIdle name then enter root way path
      else if name = ".." then enter root way.dropLast path
      else if nameLimit < name.utf8ByteSize then none
      else enter root (way ++ [name]) path := by
  rw [enter, if_neg (not_not.2 h)]

lemma enter_append (front back : List String) :
    enter root way (front ++ back) = (enter root way front).bind (enter root · back) := by
  induction front generalizing way with
  | nil =>
    by_cases h : root.HasFolder way
    · simp [enter, h]
    · simp [enter, h, enter_eq_none]
  | cons name front ih =>
    by_cases h : root.HasFolder way
    · simp only [List.cons_append, enter, h, not_true, if_false, ih]
      split
      · rfl
      · split
        · rfl
        · split <;> rfl
    · simp [enter, h]

lemma enter_idle {idle : List String} (h : ∀ name ∈ idle, IsIdle name) :
    enter root way idle = enter root way [] := by
  induction idle with
  | nil => rfl
  | cons name idle ih =>
    by_cases hfolder : root.HasFolder way
    · rw [enter_cons hfolder, if_pos (h name List.mem_cons_self),
        ih fun n hn => h n (List.mem_cons_of_mem _ hn)]
    · rw [enter_eq_none hfolder, enter_eq_none hfolder]

/-- What is entered is a folder. -/
lemma hasFolder_of_enter {path : List String} (h : enter root way path = some target) :
    root.HasFolder target := by
  induction path generalizing way with
  | nil =>
    rw [enter] at h
    split at h
    · exact Option.some.inj h ▸ ‹_›
    · cases h
  | cons name path ih =>
    rw [enter] at h
    split at h
    · cases h
    · split at h
      · exact ih h
      · split at h
        · exact ih h
        · split at h
          · cases h
          · exact ih h

lemma hasFolder_start {path : List String} (h : enter root way path = some target) :
    root.HasFolder way := by
  by_contra hnot
  rw [enter_eq_none hnot] at h
  cases h

/-- Names that do not count can be left out. -/
lemma enter_append_idle (front : List String) {idle : List String}
    (h : ∀ name ∈ idle, IsIdle name) : enter root way (front ++ idle) = enter root way front := by
  rw [enter_append]
  cases hfront : enter root way front with
  | none => rfl
  | some target => rw [Option.bind_some, enter_idle h, enter, if_pos (hasFolder_of_enter hfront)]

/-- The way to a folder stays where other folders are made or removed. -/
lemma enter_mono {root' : Tree} {path : List String}
    (hkeep : ∀ other, root.HasFolder other → root'.HasFolder other)
    (h : enter root way path = some target) : enter root' way path = some target := by
  induction path generalizing way with
  | nil =>
    rw [enter] at h ⊢
    split at h
    case isTrue hfolder => rwa [if_pos (hkeep way hfolder)]
    case isFalse => cases h
  | cons name path ih =>
    have hfolder := hasFolder_start h
    rw [enter_cons hfolder] at h
    rw [enter_cons (hkeep way hfolder)]
    split at h
    case isTrue hidle => rw [if_pos hidle, ih h]
    case isFalse hidle =>
      rw [if_neg hidle]
      split at h
      case isTrue hup => rw [if_pos hup, ih h]
      case isFalse hup =>
        rw [if_neg hup]
        split at h
        case isTrue => cases h
        case isFalse hlong => rw [if_neg hlong, ih h]

/-! ## Where paths lead -/

lemma walk_eq_error (h : ¬root.HasFolder way) {path : List String} (hne : path ≠ []) :
    walk root way path = .error .notFolder := by
  obtain ⟨name, rest, rfl⟩ := List.exists_cons_of_ne_nil hne
  rw [walk, if_pos]
  simpa using mt Tree.hasFolder_iff.2 h

lemma walk_cons (h : root.HasFolder way) (name : String) (rest : List String) :
    walk root way (name :: rest) =
      if IsIdle name then walk root way rest
      else if name = ".." then walk root way.dropLast rest
      else if nameLimit < name.utf8ByteSize then .error .nameTooLong
      else if rest.all String.isEmpty then
        .ok (.entry (way ++ [name]) (!rest.isEmpty) (root.get? (way ++ [name])))
      else if (root.get? (way ++ [name])).isNone then .error .missing
      else walk root (way ++ [name]) rest := by
  have hfolder : (!(root.get? way).any Tree.isFolder) = false := by
    rw [Tree.hasFolder_iff.1 h]
    rfl
  rw [walk, hfolder]
  simp only [Bool.false_eq_true, if_false, Bool.or_eq_true, decide_eq_true_eq]
  rfl

lemma all_isEmpty_eq_false {front rest : List String} (hrest : ∃ name ∈ rest, name ≠ "") :
    (front ++ rest).all String.isEmpty = false := by
  obtain ⟨name, hname, hne⟩ := hrest
  exact List.all_eq_false.2 ⟨name, List.mem_append_right _ hname, by simpa using hne⟩

/-- Where names lead in a folder that others lead to. -/
lemma walk_append {front rest : List String} (hrest : ∃ name ∈ rest, name ≠ "")
    (h : enter root way front = some target) :
    walk root way (front ++ rest) = walk root target rest := by
  induction front generalizing way with
  | nil =>
    rw [enter] at h
    split at h
    · rw [Option.some.inj h, List.nil_append]
    · cases h
  | cons name front ih =>
    have hfolder := hasFolder_start h
    rw [enter_cons hfolder] at h
    rw [List.cons_append, walk_cons hfolder, all_isEmpty_eq_false hrest]
    split at h
    case isTrue hidle => rw [if_pos hidle, ih h]
    case isFalse hidle =>
      rw [if_neg hidle]
      split at h
      case isTrue hup => rw [if_pos hup, ih h]
      case isFalse hup =>
        rw [if_neg hup]
        split at h
        case isTrue => cases h
        case isFalse hlong =>
          obtain ⟨entries, hentries⟩ := hasFolder_start h
          rw [if_neg hlong, if_neg Bool.false_ne_true, hentries, if_neg (by simp), ih h]

lemma walk_append_error {front rest : List String} (hrest : ∃ name ∈ rest, name ≠ "")
    (h : enter root way front = none) : ∃ fault, walk root way (front ++ rest) = .error fault := by
  have hne : rest ≠ [] := by
    rintro rfl
    simp at hrest
  induction front generalizing way with
  | nil =>
    rw [enter] at h
    split at h
    · cases h
    · exact ⟨_, walk_eq_error ‹_› hne⟩
  | cons name front ih =>
    by_cases hfolder : root.HasFolder way
    · rw [enter_cons hfolder] at h
      rw [List.cons_append, walk_cons hfolder, all_isEmpty_eq_false hrest]
      split at h
      case isTrue hidle =>
        rw [if_pos hidle]
        exact ih h
      case isFalse hidle =>
        rw [if_neg hidle]
        split at h
        case isTrue hup =>
          rw [if_pos hup]
          exact ih h
        case isFalse hup =>
          rw [if_neg hup]
          split at h
          case isTrue hlong => exact ⟨_, if_pos hlong⟩
          case isFalse hlong =>
            rw [if_neg hlong, if_neg Bool.false_ne_true]
            split
            · exact ⟨_, rfl⟩
            · exact ih h
    · exact ⟨_, walk_eq_error hfolder (by simp)⟩

/-! ## Folders at paths -/

/-- What is found where a path leads. -/
def look (root : Tree) : Spot → Except Fault Tree
  | .folder way => (root.get? way).elim (.error .missing) pure
  | .entry _ _ none => .error .missing
  | .entry _ slash (some t) => if slash && !t.isFolder then .error .notFolder else pure t

lemma find_eq (d : Machine) (path : String) : d.find path = d.locate path >>= look d.root := rfl

lemma exists_enter_nil_iff {entries : List (String × Tree)} :
    (∃ target, enter root way [] = some target ∧ root.get? target = some (.folder entries)) ↔
      root.get? way = some (.folder entries) := by
  constructor
  · rintro ⟨target, henter, hget⟩
    rw [enter] at henter
    split at henter
    · rwa [Option.some.inj henter]
    · cases henter
  · intro h
    have hfolder : root.HasFolder way := ⟨entries, h⟩
    exact ⟨way, by rw [enter, if_pos hfolder], h⟩

lemma look_entry_iff {slash : Bool} {found : Option Tree} {entries : List (String × Tree)} :
    look root (.entry way slash found) = .ok (.folder entries) ↔
      found = some (.folder entries) := by
  cases found with
  | none => simp [look]
  | some t =>
    rw [look]
    constructor
    · intro h
      split at h
      · cases h
      · exact congrArg some (Except.ok.inj h)
    · intro h
      obtain rfl := Option.some.inj h
      simp [Tree.isFolder, pure, Except.pure]

/-- The folders that names lead to are those that can be entered. -/
lemma look_walk_iff {entries : List (String × Tree)} {path : List String} :
    (walk root way path >>= look root) = .ok (.folder entries) ↔
      ∃ target, enter root way path = some target ∧ root.get? target = some (.folder entries) := by
  induction path generalizing way with
  | nil =>
    rw [exists_enter_nil_iff, walk]
    show look root (.folder way) = _ ↔ _
    rw [look]
    cases root.get? way <;> simp [pure, Except.pure]
  | cons name rest ih =>
    by_cases hfolder : root.HasFolder way
    · rw [walk_cons hfolder, enter_cons hfolder]
      split
      · exact ih
      · split
        · exact ih
        · split
          · simp [bind, Except.bind]
          · by_cases hempty : rest.all String.isEmpty = true
            · have hidle : ∀ n ∈ rest, IsIdle n :=
                fun n hn => .inl (String.isEmpty_iff.1 (List.all_eq_true.1 hempty n hn))
              rw [if_pos hempty, enter_idle hidle, exists_enter_nil_iff]
              exact look_entry_iff
            · rw [if_neg hempty]
              split
              case isTrue hnone =>
                have hnot : ¬root.HasFolder (way ++ [name]) := by
                  rintro ⟨inner, hinner⟩
                  simp [hinner] at hnone
                rw [enter_eq_none hnot]
                simp [bind, Except.bind]
              case isFalse => exact ih
    · rw [walk_eq_error hfolder (List.cons_ne_nil _ _), enter_eq_none hfolder]
      simp [bind, Except.bind]

/-- The folder at the end of a path. -/
def folderAt (d : Machine) (path : String) : Option (List String) :=
  if path.toList.contains '\x00' then none
  else enter d.root (if isAbsolute path then [] else d.here) (names path)

variable {d : Machine} {path : String}

lemma find_eq_folder_iff {entries : List (String × Tree)} (hne : path ≠ "") :
    d.find path = .ok (.folder entries) ↔
      ∃ way, d.folderAt path = some way ∧ d.root.get? way = some (.folder entries) := by
  have hnonempty : ¬path.isEmpty = true := by simpa using hne
  rw [find_eq, locate, if_neg hnonempty, folderAt]
  by_cases hnull : path.toList.contains '\x00' = true
  · rw [if_pos hnull, if_pos hnull]
    simp [bind, Except.bind]
  · rw [if_neg hnull, if_neg hnull]
    exact look_walk_iff

/-- Whether there is a folder at a path. -/
lemma exists_folder_iff (hne : path ≠ "") :
    (∃ entries, d.find path = .ok (.folder entries)) ↔ ∃ way, d.folderAt path = some way := by
  constructor
  · rintro ⟨entries, h⟩
    obtain ⟨way, hway, -⟩ := (find_eq_folder_iff hne).1 h
    exact ⟨way, hway⟩
  · rintro ⟨way, hway⟩
    have hfolder : d.root.HasFolder way := by
      rw [folderAt] at hway
      split at hway
      · cases hway
      · exact hasFolder_of_enter hway
    obtain ⟨entries, hentries⟩ := hfolder
    exact ⟨entries, (find_eq_folder_iff hne).2 ⟨way, hway, hentries⟩⟩

/-- A path to an entry leads to the folder of the entry, and then to a name in it. -/
lemma walk_eq_entry {path target : List String} {slash : Bool} {found : Option Tree}
    (h : walk root way path = .ok (.entry target slash found)) :
    found = root.get? target ∧ ∃ front name behind above, path = front ++ name :: behind ∧
      target = above ++ [name] ∧ enter root way front = some above ∧
      (∀ n ∈ behind, IsIdle n) ∧ ¬IsIdle name ∧ name ≠ ".." ∧ ¬nameLimit < name.utf8ByteSize := by
  induction path generalizing way with
  | nil => cases h
  | cons name rest ih =>
    by_cases hfolder : root.HasFolder way
    · rw [walk_cons hfolder] at h
      split at h
      case isTrue hidle =>
        obtain ⟨hfound, front, last, behind, above, rfl, htarget, henter, hrest⟩ := ih h
        exact ⟨hfound, name :: front, last, behind, above, rfl, htarget,
          by rw [enter_cons hfolder, if_pos hidle, henter], hrest⟩
      case isFalse hidle =>
        split at h
        case isTrue hup =>
          obtain ⟨hfound, front, last, behind, above, rfl, htarget, henter, hrest⟩ := ih h
          exact ⟨hfound, name :: front, last, behind, above, rfl, htarget,
            by rw [enter_cons hfolder, if_neg hidle, if_pos hup, henter], hrest⟩
        case isFalse hup =>
          split at h
          · cases h
          case isFalse hlong =>
            split at h
            case isTrue hempty =>
              simp only [Except.ok.injEq, Spot.entry.injEq] at h
              obtain ⟨rfl, -, rfl⟩ := h
              refine ⟨rfl, [], name, rest, way, rfl, rfl, by rw [enter, if_pos hfolder], ?_, hidle,
                hup, hlong⟩
              exact fun n hn => .inl (String.isEmpty_iff.1 (List.all_eq_true.1 hempty n hn))
            case isFalse =>
              split at h
              · cases h
              · obtain ⟨hfound, front, last, behind, above, rfl, htarget, henter, hrest⟩ := ih h
                exact ⟨hfound, name :: front, last, behind, above, rfl, htarget,
                  by rw [enter_cons hfolder, if_neg hidle, if_neg hup, if_neg hlong, henter], hrest⟩
    · rw [walk_eq_error hfolder (List.cons_ne_nil _ _)] at h
      cases h

/-! ## Making one folder -/

/-- A path leads to an open folder with some entries. -/
structure Opens (d : Machine) (path : String) (way : List String) (entries : List (String × Tree)) :
    Prop where
  folderAt_eq : d.folderAt path = some way
  get?_eq : d.root.get? way = some (.folder entries)

/-- The folders of a machine are folders of another one with the same working folder. -/
structure Extends (d d' : Machine) : Prop where
  here_eq : d'.here = d.here
  clock_eq : d'.clock = d.clock
  keeps : ∀ way, d.root.HasFolder way → d'.root.HasFolder way

lemma Extends.refl (d : Machine) : Extends d d := ⟨rfl, rfl, fun _ h => h⟩

lemma Extends.trans {d d' d'' : Machine} (h : Extends d d') (h' : Extends d' d'') : Extends d d'' :=
  ⟨h'.here_eq.trans h.here_eq, h'.clock_eq.trans h.clock_eq,
    fun way hway => h'.keeps way (h.keeps way hway)⟩

lemma Extends.folderAt_eq {d d' : Machine} (h : Extends d d') {path : String} {way : List String}
    (hway : d.folderAt path = some way) : d'.folderAt path = some way := by
  rw [folderAt] at hway ⊢
  split at hway
  · cases hway
  · rw [if_neg ‹_›, h.here_eq]
    exact enter_mono h.keeps hway

lemma locate_eq_walk {spot : Spot} (h : d.locate path = .ok spot) :
    ¬path.toList.contains '\x00' = true ∧
      walk d.root (if isAbsolute path then [] else d.here) (names path) = .ok spot := by
  rw [locate] at h
  split at h
  · cases h
  · split at h
    · cases h
    · exact ⟨‹_›, h⟩

/-- Something else than a folder can be put where there was none. -/
lemma extends_put {way : List String} (hne : way ≠ []) (hnot : ¬d.root.HasFolder way)
    (new : Option Tree) : Extends d { d with root := d.root.put new way } :=
  ⟨rfl, rfl, fun _ h => h.put hne hnot new⟩

/-- A folder that is made is empty. -/
lemma opens_of_makeFolder {d' : Machine} (h : d.makeFolder path = .ok d') :
    Extends d d' ∧ ∃ way, Opens d' path way [] := by
  obtain ⟨spot, hspot, hput⟩ := bind_eq_ok.1 h
  cases spot with
  | folder way => cases hput
  | entry way slash found =>
    cases found with
    | some t => cases hput
    | none =>
      obtain rfl := Except.ok.inj hput
      obtain ⟨hnull, hwalk⟩ := locate_eq_walk hspot
      obtain ⟨hfound, front, name, behind, above, hnames, rfl, henter, hbehind, hidle, hup,
        hlong⟩ := walk_eq_entry hwalk
      have hnot : ¬d.root.HasFolder (above ++ [name]) := by
        rintro ⟨entries, hentries⟩
        rw [hentries] at hfound
        cases hfound
      have hext := extends_put (by simp) hnot (some (.folder []))
      obtain ⟨entries, hentries⟩ := hasFolder_of_enter henter
      have habove := Tree.get?_put hentries name (some (.folder []))
      have hmade : (d.root.put (some (.folder [])) (above ++ [name])).get? (above ++ [name]) =
          some (.folder []) := by
        rw [Tree.get?_entry habove, Tree.setEntry, Named.get?_insert, if_pos rfl]
      refine ⟨hext, above ++ [name], ?_, hmade⟩
      rw [folderAt, if_neg hnull, hnames, enter_append]
      have hstart := enter_mono hext.keeps henter
      rw [hstart, Option.bind_some, enter_cons ⟨_, habove⟩, if_neg hidle, if_neg hup,
        if_neg hlong, enter_idle hbehind, enter, if_pos ⟨_, hmade⟩]

/-! ## Files in an open folder -/

/-- A text that is the name of a file, and not of a way. -/
structure IsFileName (file : String) : Prop where
  not_idle : ¬IsIdle file
  not_up : file ≠ ".."
  slash : '/' ∉ file.toList
  null : '\x00' ∉ file.toList

section Files

variable {folder file text : String} {way : List String} {entries : List (String × Tree)}

/-- A file in a folder is looked for behind the names that lead to the folder. -/
lemma locate_join (hne : folder ≠ "") (hfile : IsFileName file) (hnull : '\x00' ∉ folder.toList) :
    ∃ front, d.locate (join folder file) =
        walk d.root (if isAbsolute folder then [] else d.here) (front ++ [file]) ∧
      d.folderAt folder = enter d.root (if isAbsolute folder then [] else d.here) front := by
  obtain ⟨front, hfolder, hjoin⟩ := names_join hne
  have hjoinNull : ¬(join folder file).toList.contains '\x00' = true := by
    rw [List.contains_iff_mem, mem_join_iff (by decide)]
    exact not_or.2 ⟨hnull, hfile.null⟩
  have hnonempty : ¬(join folder file).isEmpty = true := by simpa using join_ne_empty hne file
  have hfolderNull : ¬folder.toList.contains '\x00' = true := by rwa [List.contains_iff_mem]
  refine ⟨front, ?_, ?_⟩
  · rw [locate, if_neg hnonempty, if_neg hjoinNull, isAbsolute_join hne, hjoin file hfile.slash]
  · rw [folderAt, if_neg hfolderNull]
    rcases hfolder with heq | heq
    · rw [heq]
    · rw [heq, enter_append_idle front (List.forall_mem_singleton.2 (.inl rfl))]

lemma IsFileName.exists_ne (h : IsFileName file) : ∃ name ∈ [file], name ≠ "" :=
  ⟨file, List.mem_cons_self, fun heq => h.not_idle (.inl heq)⟩

/-- Where there is no folder there are no files. -/
lemma locate_join_of_folderAt_eq_none (hne : folder ≠ "") (hfile : IsFileName file)
    (h : d.folderAt folder = none) : ∃ fault, d.locate (join folder file) = .error fault := by
  by_cases hnull : '\x00' ∈ folder.toList
  · have hjoinNull : (join folder file).toList.contains '\x00' = true := by
      rw [List.contains_iff_mem, mem_join_iff (by decide)]
      exact .inl hnull
    have hnonempty : ¬(join folder file).isEmpty = true := by simpa using join_ne_empty hne file
    exact ⟨.nullInPath, by rw [locate, if_neg hnonempty, if_pos hjoinNull]⟩
  · obtain ⟨front, hlocate, hfolder⟩ := locate_join (d := d) hne hfile hnull
    obtain ⟨fault, hwalk⟩ := walk_append_error hfile.exists_ne (hfolder.symm.trans h)
    exact ⟨fault, hlocate.trans hwalk⟩

/-- A file of an open folder is what the folder has under its name. -/
lemma Opens.locate_join (h : Opens d folder way entries) (hne : folder ≠ "")
    (hfile : IsFileName file) :
    d.locate (join folder file) =
      if nameLimit < file.utf8ByteSize then .error .nameTooLong
      else .ok (.entry (way ++ [file]) false (Named.get? file entries)) := by
  have hway := h.folderAt_eq
  have hnull : '\x00' ∉ folder.toList := by
    rw [← List.contains_iff_mem]
    intro hnull
    rw [folderAt, if_pos hnull] at hway
    cases hway
  obtain ⟨front, hlocate, hfolder⟩ := Machine.locate_join (d := d) hne hfile hnull
  rw [hlocate, walk_append hfile.exists_ne (hfolder.symm.trans hway),
    walk_cons ⟨entries, h.get?_eq⟩, if_neg hfile.not_idle, if_neg hfile.not_up,
    Tree.get?_entry h.get?_eq]
  rfl

/-- Every entry of an open folder is found. -/
lemma Opens.find_join (h : Opens d folder way entries) (hne : folder ≠ "") (hfile : IsFileName file)
    (hshort : file.utf8ByteSize ≤ nameLimit) :
    d.find (join folder file) = (Named.get? file entries).elim (.error .missing) .ok := by
  rw [find_eq, h.locate_join hne hfile, if_neg (Nat.not_lt.2 hshort)]
  cases Named.get? file entries <;> rfl

/-- A name that is too long is not found. -/
lemma Opens.find_join_long (h : Opens d folder way entries) (hne : folder ≠ "")
    (hfile : IsFileName file) (hlong : nameLimit < file.utf8ByteSize) :
    d.find (join folder file) = .error .nameTooLong := by
  rw [find_eq, h.locate_join hne hfile, if_pos hlong]
  rfl

/-- Nor can it be written. -/
lemma Opens.write_long (h : Opens d folder way entries) (hne : folder ≠ "")
    (hfile : IsFileName file) (hlong : nameLimit < file.utf8ByteSize) (text : String) :
    d.write (join folder file) text = .error .nameTooLong := by
  rw [Machine.write, h.locate_join hne hfile, if_pos hlong]
  rfl

/-- An entry of an open folder that is no folder can be changed. -/
lemma Opens.set (h : Opens d folder way entries)
    (hfile : ∀ inner, Named.get? file entries ≠ some (.folder inner)) (new : Option Tree) :
    Extends d { d with root := d.root.put new (way ++ [file]) } ∧
      Opens { d with root := d.root.put new (way ++ [file]) } folder way
        (Tree.setEntry file new entries) := by
  have hnot : ¬d.root.HasFolder (way ++ [file]) := by
    rintro ⟨inner, hinner⟩
    rw [Tree.get?_entry h.get?_eq] at hinner
    exact hfile inner hinner
  have hext := extends_put (by simp) hnot new
  exact ⟨hext, hext.folderAt_eq h.folderAt_eq, Tree.get?_put h.get?_eq file new⟩

/-- Writing a file of an open folder. -/
lemma Opens.write (h : Opens d folder way entries) (hne : folder ≠ "") (hfile : IsFileName file)
    (hshort : file.utf8ByteSize ≤ nameLimit)
    (hfree : ∀ inner, Named.get? file entries ≠ some (.folder inner)) (text : String) :
    ∃ d', d.write (join folder file) text = .ok d' ∧ Extends d d' ∧
      Opens d' folder way (Named.insert file (.text text) entries) := by
  obtain ⟨hext, hopens⟩ := h.set hfree (some (.text text))
  refine ⟨_, ?_, hext, hopens⟩
  rw [Machine.write, h.locate_join hne hfile, if_neg (Nat.not_lt.2 hshort)]
  cases hfound : Named.get? file entries with
  | none => rfl
  | some t =>
    cases t with
    | folder inner => exact absurd hfound (hfree inner)
    | text => rfl
    | bytes => rfl

/-- Removing a file of an open folder. -/
lemma Opens.remove (h : Opens d folder way entries) (hne : folder ≠ "") (hfile : IsFileName file)
    (hshort : file.utf8ByteSize ≤ nameLimit)
    (hthere : Named.get? file entries = some (.text text)) :
    ∃ d', d.remove (join folder file) = .ok d' ∧ Extends d d' ∧
      Opens d' folder way (Named.erase file entries) := by
  have hfree : ∀ inner, Named.get? file entries ≠ some (.folder inner) := by simp [hthere]
  obtain ⟨hext, hopens⟩ := h.set hfree none
  refine ⟨_, ?_, hext, hopens⟩
  rw [Machine.remove, h.locate_join hne hfile, if_neg (Nat.not_lt.2 hshort), hthere]
  rfl

end Files

end Machine

end Pipework.Disk
