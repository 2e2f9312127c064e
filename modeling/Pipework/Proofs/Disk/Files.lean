import Pipework.Proofs.Disk.Folders

/-!
# Files of a machine

What writing a file and making folders do to the files of a machine.  A file is known by the way to
it through folders (`Tree.fileAt`), so that it does not matter how many paths lead there.  Both of
them set one entry of a folder (`Sets`): writing gives one file its text and leaves all others alone
(`hasText_of_write`), and making folders leaves all files alone, whether it succeeds or not
(`Made.same`).

A path that leads to a place leads there also after folders were made (`Extends.locate_eq`).
-/

namespace Pipework.Disk

/-! ## Files at the ends of ways -/

namespace Tree

/-- The file at the end of a way, if there is one. -/
def fileAt (t : Tree) (way : List String) : Option Tree := (t.get? way).filter fun u => !u.isFolder

/-- Something with nothing inside: a file or an empty folder. -/
def IsFlat (t : Tree) : Prop := ∀ name rest, t.get? (name :: rest) = none

lemma isFlat_text (s : String) : (text s).IsFlat := fun _ _ => rfl

lemma isFlat_folder_nil : (folder []).IsFlat := fun _ _ => rfl

lemma fileAt_cons (entries : List (String × Tree)) (name : String) (rest : List String) :
    (folder entries).fileAt (name :: rest) = (Named.get? name entries).bind (fileAt · rest) := by
  rw [fileAt, get?]
  cases Named.get? name entries <;> rfl

/-- Below what is no folder there is no file. -/
lemma fileAt_cons_eq_none {u : Tree} (h : ¬u.HasFolder []) (name : String) (rest : List String) :
    u.fileAt (name :: rest) = none := by
  cases u with
  | folder entries => exact absurd ⟨entries, rfl⟩ h
  | text => rfl
  | bytes => rfl

/-- Where there is no folder, putting something with nothing inside, or removing what is there, is
about one file. -/
lemma fileAt_put {t : Tree} {above : List String} {name : String} (habove : t.HasFolder above)
    (hnot : ¬t.HasFolder (above ++ [name])) {new : Option Tree} (hflat : ∀ u ∈ new, u.IsFlat)
    (other : List String) :
    (put new (above ++ [name]) t).fileAt other =
      if other = above ++ [name] then new.bind (fileAt · []) else t.fileAt other := by
  induction above generalizing t other with
  | nil =>
    obtain ⟨entries, hget⟩ := habove
    obtain rfl := Option.some.inj hget
    have hput : put new [name] (folder entries) = folder (setEntry name new entries) := by
      cases new <;> rfl
    rw [List.nil_append] at hnot ⊢
    rw [hput]
    cases other with
    | nil => rfl
    | cons first rest =>
      rw [fileAt_cons, fileAt_cons, get?_setEntry]
      by_cases hfirst : name = first
      · subst hfirst
        rw [if_pos rfl]
        cases rest with
        | nil => rw [if_pos rfl]
        | cons next rest =>
          -- there is nothing below the name, neither before nor afterwards
          have hnew : new.bind (fileAt · (next :: rest)) = none :=
            Option.bind_eq_none_iff.2 fun u hu => by rw [fileAt, hflat u hu next rest]; rfl
          have hold : (Named.get? name entries).bind (fileAt · (next :: rest)) = none :=
            Option.bind_eq_none_iff.2 fun u hu =>
              fileAt_cons_eq_none (fun hu' => hnot (hasFolder_cons.2 ⟨u, hu, hu'⟩)) next rest
          rw [if_neg (by simp), hnew, hold]
      · have hne : first :: rest ≠ [name] := by
          rintro heq
          exact hfirst (List.cons.inj heq).1.symm
        rw [if_neg hfirst, if_neg hne]
  | cons first way ih =>
    cases t with
    | text => obtain ⟨entries, hget⟩ := habove; cases hget
    | bytes => obtain ⟨entries, hget⟩ := habove; cases hget
    | folder entries =>
      obtain ⟨u, hu, hway⟩ := hasFolder_cons.1 habove
      have hdeep : ¬u.HasFolder (way ++ [name]) := fun hfolder =>
        hnot (hasFolder_cons.2 ⟨u, hu, hfolder⟩)
      rw [List.cons_append, put_cons (by simp), hu]
      cases other with
      | nil => rfl
      | cons next rest =>
        rw [fileAt_cons, fileAt_cons, Named.get?_insert]
        by_cases hnext : first = next
        · subst hnext
          rw [if_pos rfl, Option.bind_some, ih hway hdeep, hu, Option.bind_some]
          simp
        · have hne : next :: rest ≠ first :: (way ++ [name]) := by
            rintro heq
            exact hnext (List.cons.inj heq).1.symm
          rw [if_neg hnext, if_neg hne]

end Tree

namespace Machine

/-- The files of two machines are the same, but for one way. -/
def SameFilesBut (way : List String) (d d' : Machine) : Prop :=
  ∀ other ≠ way, d'.root.fileAt other = d.root.fileAt other

/-- The files of two machines are the same. -/
def SameFiles (d d' : Machine) : Prop := ∀ way, d'.root.fileAt way = d.root.fileAt way

section

variable {d d' d'' : Machine} {way : List String}

lemma SameFiles.refl (d : Machine) : SameFiles d d := fun _ => rfl

lemma SameFiles.trans (h : SameFiles d d') (h' : SameFiles d' d'') : SameFiles d d'' :=
  fun way => (h' way).trans (h way)

lemma SameFiles.but (h : SameFiles d d') (way : List String) : SameFilesBut way d d' :=
  fun other _ => h other

lemma SameFilesBut.trans (h : SameFilesBut way d d') (h' : SameFilesBut way d' d'') :
    SameFilesBut way d d'' :=
  fun other hother => (h' other hother).trans (h other hother)

end

/-! ## Where paths lead afterwards -/

/-- A spot in another tree. -/
def Spot.on (root : Tree) : Spot → Spot
  | .folder way => .folder way
  | .entry way slash _ => .entry way slash (root.get? way)

/-- The way to a spot. -/
def Spot.way : Spot → List String
  | .folder way => way
  | .entry way _ _ => way

/-- The way on which a path leads. -/
def wayTo (d : Machine) (path : String) : Option (List String) :=
  (d.locate path).toOption.map Spot.way

/-- Names lead to the same spot where no folder is missing that was there. -/
lemma walk_mono {root root' : Tree} {way path : List String} {spot : Spot}
    (hkeep : ∀ other, root.HasFolder other → root'.HasFolder other)
    (h : walk root way path = .ok spot) : walk root' way path = .ok (spot.on root') := by
  induction path generalizing way with
  | nil =>
    obtain rfl := Except.ok.inj h
    rfl
  | cons name rest ih =>
    have hfolder : root.HasFolder way := by
      by_contra hnot
      rw [walk_eq_error hnot (List.cons_ne_nil _ _)] at h
      cases h
    rw [walk_cons hfolder] at h
    rw [walk_cons (hkeep way hfolder)]
    split at h
    case isTrue hidle => rw [if_pos hidle, ih h]
    case isFalse hidle =>
      rw [if_neg hidle]
      split at h
      case isTrue hup => rw [if_pos hup, ih h]
      case isFalse hup =>
        rw [if_neg hup]
        split at h
        · cases h
        case isFalse hlong =>
          rw [if_neg hlong]
          split at h
          case isTrue hlast =>
            obtain rfl := Except.ok.inj h
            rw [if_pos hlast]
            rfl
          case isFalse hlast =>
            rw [if_neg hlast]
            split at h
            · cases h
            · -- the names go on, so that this one is a folder, and still is
              have hrest : rest ≠ [] := by
                rintro rfl
                exact hlast rfl
              have hnext : root.HasFolder (way ++ [name]) := by
                by_contra hnot
                rw [walk_eq_error hnot hrest] at h
                cases h
              obtain ⟨entries, hentries⟩ := hkeep _ hnext
              rw [hentries, if_neg (by simp), ih h]

section

variable {d d' : Machine} {path : String} {spot : Spot}

/-- A path leads to the same spot where no folder is missing that was there. -/
lemma Extends.locate_eq (h : Extends d d') (hspot : d.locate path = .ok spot) :
    d'.locate path = .ok (spot.on d'.root) := by
  obtain ⟨hnull, hwalk⟩ := locate_eq_walk hspot
  have hne : ¬path.isEmpty = true := by
    intro hempty
    rw [locate, if_pos hempty] at hspot
    cases hspot
  rw [locate, if_neg hne, if_neg hnull, h.here_eq]
  exact walk_mono h.keeps hwalk

lemma Extends.wayTo_eq (h : Extends d d') {way : List String} (hway : d.wayTo path = some way) :
    d'.wayTo path = some way := by
  rw [wayTo] at hway ⊢
  cases hspot : d.locate path with
  | error fault =>
    rw [hspot] at hway
    cases hway
  | ok spot =>
    rw [hspot] at hway
    rw [h.locate_eq hspot]
    obtain rfl := Option.some.inj hway
    cases spot <;> rfl

/-- The entry at a path is in a folder. -/
lemma exists_above {way : List String} {slash : Bool} {found : Option Tree}
    (h : d.locate path = .ok (.entry way slash found)) :
    found = d.root.get? way ∧
      ∃ above name, way = above ++ [name] ∧ d.root.HasFolder above := by
  obtain ⟨-, hwalk⟩ := locate_eq_walk h
  obtain ⟨hfound, front, name, behind, above, -, rfl, henter, -⟩ := walk_eq_entry hwalk
  exact ⟨hfound, above, name, rfl, hasFolder_of_enter henter⟩

/-! ## Changing one entry -/

/-- A path leads to an entry of a folder where no folder is, and something is put there. -/
structure Sets (d : Machine) (path : String) (slash : Bool) (new : Tree)
    (way : List String) (d' : Machine) : Prop where
  locate_eq : d.locate path = .ok (.entry way slash (d.root.get? way))
  free : ¬d.root.HasFolder way
  eq : d' = { d with root := d.root.put (some new) way }

section Sets

variable {slash : Bool} {new : Tree} {way : List String}

lemma Sets.extends (h : d.Sets path slash new way d') : Extends d d' := by
  obtain ⟨-, above, name, rfl, -⟩ := exists_above h.locate_eq
  rw [h.eq]
  exact extends_put (by simp) h.free (some new)

/-- The path leads to what was put there. -/
lemma Sets.locate_after (h : d.Sets path slash new way d') :
    d'.locate path = .ok (.entry way slash (some new)) := by
  obtain ⟨-, above, name, rfl, entries, hentries⟩ := exists_above h.locate_eq
  have hget : d'.root.get? (above ++ [name]) = some new := by
    rw [h.eq, Tree.get?_entry (Tree.get?_put hentries name (some new)), Tree.get?_setEntry, if_pos rfl]
  rw [h.extends.locate_eq h.locate_eq, Spot.on, hget]

lemma Sets.fileAt_eq (h : d.Sets path slash new way d') (hflat : new.IsFlat)
    (other : List String) :
    d'.root.fileAt other = if other = way then new.fileAt [] else d.root.fileAt other := by
  obtain ⟨-, above, name, rfl, habove⟩ := exists_above h.locate_eq
  rw [h.eq]
  exact Tree.fileAt_put habove h.free (by simpa using hflat) other

lemma Sets.sameBut (h : d.Sets path slash new way d') (hflat : new.IsFlat) :
    SameFilesBut way d d' :=
  fun other hother => (h.fileAt_eq hflat other).trans (if_neg hother)

end Sets

lemma sets_of_write {text : String} (h : d.write path text = .ok d') :
    ∃ way, d.Sets path false (.text text) way d' := by
  obtain ⟨spot, hspot, hput⟩ := bind_eq_ok.1 h
  cases spot with
  | folder way => cases hput
  | entry way slash found =>
    simp only at hput
    split at hput
    · cases hput
    case isFalse hfree =>
      rw [Bool.or_eq_true, not_or] at hfree
      obtain rfl : slash = false := by simpa using hfree.1
      obtain ⟨rfl, -⟩ := exists_above hspot
      exact ⟨way, hspot, fun hfolder => hfree.2 (Tree.hasFolder_iff.1 hfolder),
        (Except.ok.inj hput).symm⟩

lemma sets_of_makeFolder (h : d.makeFolder path = .ok d') :
    ∃ way slash, d.root.get? way = none ∧ d.Sets path slash (.folder []) way d' := by
  obtain ⟨spot, hspot, hput⟩ := bind_eq_ok.1 h
  rcases spot with way | ⟨way, slash, - | t⟩
  · cases hput
  · have hfound := (exists_above hspot).1
    refine ⟨way, slash, hfound.symm, hfound ▸ hspot, ?_, (Except.ok.inj hput).symm⟩
    rintro ⟨entries, hentries⟩
    rw [hentries] at hfound
    cases hfound
  · cases hput

/-! ## Writing a file -/

/-- A path leads to a file with a text. -/
def HasText (d : Machine) (path : String) (way : List String) (text : String) : Prop :=
  d.locate path = .ok (.entry way false (some (.text text)))

section

variable {way : List String} {text : String}

lemma HasText.read_eq (h : d.HasText path way text) : d.read path = .ok text := by
  rw [read, find_eq, h]
  rfl

lemma HasText.wayTo_eq (h : d.HasText path way text) : d.wayTo path = some way := by
  rw [wayTo, h]
  rfl

lemma HasText.fileAt_eq (h : d.HasText path way text) :
    d.root.fileAt way = some (.text text) := by
  rw [Tree.fileAt, ← (exists_above h).1]
  rfl

/-- A file stays where it is while folders are made and other files are written. -/
lemma HasText.mono (h : d.HasText path way text) (hext : Extends d d')
    (hsame : d'.root.fileAt way = d.root.fileAt way) : d'.HasText path way text := by
  rw [h.fileAt_eq, Tree.fileAt, Option.filter_eq_some_iff] at hsame
  rw [HasText, hext.locate_eq h, Spot.on, hsame.1]

/-- Writing gives one file its text and leaves all others alone. -/
theorem hasText_of_write (h : d.write path text = .ok d') :
    ∃ way, d'.HasText path way text ∧ Extends d d' ∧ SameFilesBut way d d' := by
  obtain ⟨way, hsets⟩ := sets_of_write h
  exact ⟨way, hsets.locate_after, hsets.extends, hsets.sameBut (Tree.isFlat_text text)⟩

/-- Whether a file can be written does not depend on the text. -/
lemma isOk_write (d : Machine) (path text other : String) :
    (d.write path text).isOk = (d.write path other).isOk := by
  rw [write, write]
  cases d.locate path with
  | error fault => rfl
  | ok spot =>
    cases spot with
    | folder way => rfl
    | entry way slash found =>
      simp only [bind, Except.bind]
      split <;> rfl

end

end

/-! ## Making folders -/

section

variable {depth : Nat} {path : String} {d d' : Machine} {result : Except Fault Unit}

lemma same_of_makeFolder (h : d.makeFolder path = .ok d') : SameFiles d d' := by
  obtain ⟨way, slash, hnone, hsets⟩ := sets_of_makeFolder h
  intro other
  rw [hsets.fileAt_eq Tree.isFlat_folder_nil]
  split
  case isTrue heq => simp [heq, Tree.fileAt, hnone, Tree.get?, Tree.isFolder]
  case isFalse => rfl

/-- Making folders leaves all files alone. -/
lemma Made.same (h : Made depth path d result d') : SameFiles d d' := by
  induction h with
  | tooDeep | nothing | there | blocked | rootless => exact .refl _
  | new _ h => exact same_of_makeFolder h
  | failed _ _ _ _ ih | insideThere _ _ _ _ _ _ ih | insideBlocked _ _ _ _ _ _ ih => exact ih
  | inside _ _ _ _ h' ih => exact ih.trans (same_of_makeFolder h')

lemma keeps_of_makeFolders
    (h : (makeFolders path : StateM Machine (Except Fault Unit)).run d = (result, d')) :
    Extends d d' ∧ SameFiles d d' := by
  obtain ⟨result', d'', hrun, hmade, -⟩ := exists_made d path
  obtain ⟨-, rfl⟩ := Prod.mk.inj (hrun.symm.trans h)
  exact ⟨hmade.extends, hmade.same⟩

end

/-! ## Files in folders -/

section

variable {d d' : Machine} {folder file : String}

/-- Without a folder, a file is looked for in the working folder. -/
lemma locate_join_empty (hfile : IsFileName file) :
    d.locate (join "" file) = walk d.root d.here [file] := by
  have hjoin : join "" file = file := by simp [join]
  have hnonempty : ¬file.isEmpty = true := by
    rw [String.isEmpty_iff]
    exact fun heq => hfile.not_idle (.inl heq)
  have hnull : ¬file.toList.contains '\x00' = true := by
    rw [List.contains_iff_mem]
    exact hfile.null
  have hrelative : isAbsolute file = false := by
    rw [← Bool.not_eq_true, isAbsolute_iff]
    rintro ⟨rest, -, hnames⟩
    rw [names_eq_singleton hfile.slash] at hnames
    exact hfile.not_idle (.inl (List.cons.inj hnames).1)
  rw [hjoin, locate, if_neg hnonempty, if_neg hnull, hrelative, if_neg Bool.false_ne_true,
    names_eq_singleton hfile.slash]

lemma folderAt_empty (d : Machine) : d.folderAt "" = enter d.root d.here [] :=
  enter_idle (List.forall_mem_singleton.2 (.inl rfl))

/-- A file in a folder is one name behind the way to the folder, unless its name is too long. -/
lemma locate_join_of_folderAt (hfile : IsFileName file) {way : List String}
    (h : d.folderAt folder = some way) :
    d.locate (join folder file) =
      if nameLimit < file.utf8ByteSize then .error .nameTooLong
      else .ok (.entry (way ++ [file]) false (d.root.get? (way ++ [file]))) := by
  by_cases hne : folder = ""
  · subst hne
    rw [folderAt_empty] at h
    have hfolder := hasFolder_start h
    rw [enter, if_pos hfolder] at h
    obtain rfl := Option.some.inj h
    rw [locate_join_empty hfile, walk_cons hfolder, if_neg hfile.not_idle, if_neg hfile.not_up]
    rfl
  · obtain ⟨entries, hfind⟩ := (exists_folder_iff hne).2 ⟨way, h⟩
    obtain ⟨way', hway', hget⟩ := (find_eq_folder_iff hne).1 hfind
    obtain rfl := Option.some.inj (h.symm.trans hway')
    have hopens : Opens d folder way entries := ⟨h, hget⟩
    rw [hopens.locate_join hne hfile, Tree.get?_entry hget]

lemma locate_of_folderAt (hfile : IsFileName file) (hshort : file.utf8ByteSize ≤ nameLimit)
    {way : List String} (h : d.folderAt folder = some way) :
    d.locate (join folder file) =
      .ok (.entry (way ++ [file]) false (d.root.get? (way ++ [file]))) := by
  rw [locate_join_of_folderAt hfile h, if_neg (Nat.not_lt.2 hshort)]

lemma locate_of_folderAt_none (hfile : IsFileName file) (h : d.folderAt folder = none) :
    ∃ fault, d.locate (join folder file) = .error fault := by
  by_cases hne : folder = ""
  · subst hne
    rw [folderAt_empty, enter] at h
    split at h
    · cases h
    case isFalse hhere =>
      exact ⟨_, (locate_join_empty hfile).trans (walk_eq_error hhere (List.cons_ne_nil _ _))⟩
  · exact locate_join_of_folderAt_eq_none hne hfile h

/-- The path of a file in a folder leads nowhere else. -/
lemma folderAt_of_wayTo_join (hfile : IsFileName file) {way : List String}
    (h : d.wayTo (join folder file) = some way) :
    ∃ above, d.folderAt folder = some above ∧ way = above ++ [file] := by
  rw [wayTo] at h
  cases habove : d.folderAt folder with
  | none =>
    obtain ⟨fault, hlocate⟩ := locate_of_folderAt_none hfile habove
    rw [hlocate] at h
    cases h
  | some above =>
    rw [locate_join_of_folderAt hfile habove] at h
    split at h
    · cases h
    · exact ⟨above, rfl, (Option.some.inj h).symm⟩

/-- What is found at the path of a file in a folder. -/
lemma find_join_eq_ok_iff (hfile : IsFileName file) (hshort : file.utf8ByteSize ≤ nameLimit)
    {t : Tree} :
    d.find (join folder file) = .ok t ↔
      ∃ way, d.folderAt folder = some way ∧ d.root.get? (way ++ [file]) = some t := by
  rw [find_eq]
  cases hfolder : d.folderAt folder with
  | none =>
    obtain ⟨fault, hlocate⟩ := locate_of_folderAt_none hfile hfolder
    rw [hlocate]
    simp [bind, Except.bind]
  | some way =>
    rw [locate_of_folderAt hfile hshort hfolder]
    cases hget : d.root.get? (way ++ [file]) <;>
      simp [bind, Except.bind, look, pure, Except.pure, hget]

/-- Names without two dots lead to a folder wherever that is one. -/
lemma enter_of_hasFolder {root root' : Tree} {way path target : List String} (hup : ".." ∉ path)
    (h : enter root way path = some target) (hfolder : root'.HasFolder target) :
    enter root' way path = some target ∧ way <+: target := by
  induction path generalizing way with
  | nil =>
    rw [enter] at h
    split at h
    · obtain rfl := Option.some.inj h
      exact ⟨by rw [enter, if_pos hfolder], List.prefix_rfl⟩
    · cases h
  | cons name path ih =>
    rw [List.mem_cons, not_or] at hup
    have hstart := hasFolder_start h
    rw [enter_cons hstart, if_neg (Ne.symm hup.1)] at h
    split at h
    case isTrue hidle =>
      obtain ⟨hrest, hprefix⟩ := ih hup.2 h
      exact ⟨by rw [enter_cons (hasFolder_start hrest), if_pos hidle, hrest], hprefix⟩
    case isFalse hidle =>
      split at h
      · cases h
      case isFalse hlong =>
        obtain ⟨hrest, hprefix⟩ := ih hup.2 h
        have hway : root'.HasFolder way := (hasFolder_start hrest).of_append
        exact ⟨by rw [enter_cons hway, if_neg hidle, if_neg (Ne.symm hup.1), if_neg hlong, hrest],
          (List.prefix_append _ _).trans hprefix⟩

lemma isOk_find_iff {path : String} :
    (d.find path).isOk = true ↔ ∃ t, d.find path = .ok t := by
  cases d.find path <;> simp [Except.isOk, Except.toBool]

/-- What was found in a folder is read as before where folders were made and other files written. -/
theorem read_join_kept (hfile : IsFileName file) (hshort : file.utf8ByteSize ≤ nameLimit)
    (hext : Extends d d')
    (hsame : ∀ way, d'.folderAt folder = some way →
      d'.root.fileAt (way ++ [file]) = d.root.fileAt (way ++ [file]))
    (hfound : (d.find (join folder file)).isOk = true) :
    (d'.find (join folder file)).isOk = true ∧
      d'.read (join folder file) = d.read (join folder file) := by
  obtain ⟨t, ht⟩ := isOk_find_iff.1 hfound
  obtain ⟨way, hway, hget⟩ := (find_join_eq_ok_iff hfile hshort).1 ht
  have hway' := hext.folderAt_eq hway
  cases hfolder : t.isFolder with
  | true =>
    obtain ⟨entries', hget'⟩ := hext.keeps (way ++ [file])
      (Tree.hasFolder_iff.2 (by rw [hget]; exact hfolder))
    have ht' := (find_join_eq_ok_iff hfile hshort).2 ⟨way, hway', hget'⟩
    refine ⟨isOk_find_iff.2 ⟨_, ht'⟩, ?_⟩
    cases t with
    | folder entries =>
      rw [read, read, ht, ht']
      rfl
    | text => cases hfolder
    | bytes => cases hfolder
  | false =>
    have hfileAt := hsame way hway'
    rw [Tree.fileAt, Tree.fileAt, hget, Option.filter_some, hfolder, Bool.not_false, if_pos rfl,
      Option.filter_eq_some_iff] at hfileAt
    have ht' := (find_join_eq_ok_iff hfile hshort).2 ⟨way, hway', hfileAt.1⟩
    exact ⟨isOk_find_iff.2 ⟨_, ht'⟩, by rw [read, read, ht, ht']⟩

/-- What was missing in a folder is still missing, unless a folder was made in its place.  The path
of the folder must have no two dots: it could lead on through a new folder. -/
theorem find_join_missing (hfile : IsFileName file) (hshort : file.utf8ByteSize ≤ nameLimit)
    (hext : Extends d d')
    (hsame : ∀ way, d'.folderAt folder = some way →
      d'.root.fileAt (way ++ [file]) = d.root.fileAt (way ++ [file]))
    (hmissing : (d.find (join folder file)).isOk = false) (hup : ".." ∉ names folder)
    (hfree : d'.isFolder (join folder file) = false) :
    (d'.find (join folder file)).isOk = false := by
  rw [Bool.eq_false_iff, ne_eq, isOk_find_iff] at hmissing ⊢
  rintro ⟨t, ht'⟩
  obtain ⟨way, hway', hget'⟩ := (find_join_eq_ok_iff hfile hshort).1 ht'
  have hfolder : t.isFolder = false := by rwa [isFolder, ht'] at hfree
  have hfileAt := hsame way hway'
  rw [Tree.fileAt, Tree.fileAt, hget', Option.filter_some, hfolder, Bool.not_false, if_pos rfl,
    eq_comm, Option.filter_eq_some_iff] at hfileAt
  have habove : d.root.HasFolder way := by
    have hget := hfileAt.1
    rw [Tree.get?_append] at hget
    obtain ⟨u, hu, hentry⟩ := Option.bind_eq_some_iff.1 hget
    cases u with
    | folder entries => exact ⟨entries, hu⟩
    | text => cases hentry
    | bytes => cases hentry
  -- the names lead through the same folders on both machines
  have hway : d.folderAt folder = some way := by
    rw [folderAt] at hway' ⊢
    split at hway'
    · cases hway'
    · rw [if_neg ‹_›, ← hext.here_eq]
      exact (enter_of_hasFolder hup hway' habove).1
  exact hmissing ⟨t, (find_join_eq_ok_iff hfile hshort).2 ⟨way, hway, hfileAt.1⟩⟩

end

end Machine

end Pipework.Disk
