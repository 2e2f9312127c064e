import Pipework.Disk.Volume
import Pipework.Proofs.Disk.Path
import Pipework.Proofs.Except
import Pipework.Proofs.Named

/-!
# What requests do to a volume

`Leads` says where the names of a path lead, with one constructor for each way on; `walk_eq_ok_iff`
says that this is what is computed.  A path behind which a file stands leads through the folder of
that file (`Leads.append`), and what is added to a volume leaves all ways as they are
(`Leads.mono`).

`leaf?` is what stands under a name without any link being followed, unless it is a folder.  A text
that is written changes the file that its path leads to and nothing under any other name
(`exists_written`); making folders and removing a file are as confined (`grows_of_makeFolder`,
`removed_of_remove` with `leaf?_drop`).
-/

namespace Pipework.Disk

/-- A text that is the name of a file, and not of a way. -/
structure IsEntry (name : String) : Prop where
  not_idle : ¬IsIdle name
  not_up : name ≠ ".."

namespace Volume

variable {v v' : Volume} {follow : Bool} {links n k : Nat} {path : List String} {name : String}
  {spot : Spot}

/-! ## Nodes -/

/-- Whether a number is that of a link. -/
def isLink (v : Volume) (n : Nat) : Bool := (v.node? n).any Node.isLink

lemma isLink_iff : v.isLink n = true ↔ ∃ target, v.node? n = some (.link target) := by
  unfold isLink
  rcases v.node? n with - | - | - | - | - <;> simp [Node.isLink]

lemma number?_of_folder {parent : Nat} {entries : List (String × Nat)}
    (hn : v.node? n = some (.folder parent entries)) (name : String) :
    v.number? n name = Named.get? name entries := by
  rw [number?, hn]
  rfl

lemma node?_of_number? (h : v.number? n name = some k) : ∃ node, v.node? k = some node := by
  obtain ⟨folder, hfolder, hget⟩ := Option.bind_eq_some_iff.1 h
  have hlt := v.closed folder (List.mem_of_getElem? hfolder) _ (Named.mem_of_get?_eq_some hget)
  exact ⟨_, List.getElem?_eq_getElem hlt⟩

/-- What stands under a name in a folder without a link being followed, unless it is a folder. -/
def leaf? (v : Volume) (n : Nat) (name : String) : Option Node :=
  ((v.number? n name).bind v.node?).filter (!·.isFolder)

lemma leaf?_congr (hentry : v'.number? n name = v.number? n name)
    (hnode : ∀ k, v.number? n name = some k →
      (v'.node? k).filter (!·.isFolder) = (v.node? k).filter (!·.isFolder)) :
    v'.leaf? n name = v.leaf? n name := by
  rw [leaf?, leaf?, hentry]
  cases hk : v.number? n name with
  | none => rfl
  | some k => exact hnode k hk

/-! ## Ways -/

/-- Where the names of a path lead from a folder, over a limited number of links. -/
inductive Leads (v : Volume) (follow : Bool) : Nat → Nat → List String → Spot → Prop where
  | here {links n : Nat} : Leads v follow links n [] (.folder n)
  | idle {links n parent : Nat} {entries : List (String × Nat)} {name : String}
    {rest : List String} {spot : Spot} (hn : v.node? n = some (.folder parent entries))
    (hname : IsIdle name) (h : Leads v follow links n rest spot) :
    Leads v follow links n (name :: rest) spot
  | up {links n parent : Nat} {entries : List (String × Nat)} {rest : List String} {spot : Spot}
    (hn : v.node? n = some (.folder parent entries))
    (h : Leads v follow links parent rest spot) : Leads v follow links n (".." :: rest) spot
  | missing {links n parent : Nat} {entries : List (String × Nat)} {name : String}
    {rest : List String} (hn : v.node? n = some (.folder parent entries)) (hname : IsEntry name)
    (hshort : name.utf8ByteSize ≤ nameLimit) (hget : Named.get? name entries = none)
    (hend : rest.all String.isEmpty = true) :
    Leads v follow links n (name :: rest) (.entry n name (!rest.isEmpty) none)
  | found {links n parent k : Nat} {entries : List (String × Nat)} {name : String}
    {rest : List String} (hn : v.node? n = some (.folder parent entries)) (hname : IsEntry name)
    (hshort : name.utf8ByteSize ≤ nameLimit) (hget : Named.get? name entries = some k)
    (hend : rest.all String.isEmpty = true) (hstop : follow = true → v.isLink k = false) :
    Leads v follow links n (name :: rest) (.entry n name (!rest.isEmpty) (some k))
  | inside {links n parent k : Nat} {entries : List (String × Nat)} {name : String}
    {rest : List String} {spot : Spot} (hn : v.node? n = some (.folder parent entries))
    (hname : IsEntry name) (hshort : name.utf8ByteSize ≤ nameLimit)
    (hget : Named.get? name entries = some k) (hend : rest.all String.isEmpty = false)
    (hk : v.isLink k = false) (h : Leads v follow links k rest spot) :
    Leads v follow links n (name :: rest) spot
  | link {links n parent k : Nat} {entries : List (String × Nat)} {name target : String}
    {rest : List String} {spot : Spot} (hn : v.node? n = some (.folder parent entries))
    (hname : IsEntry name) (hshort : name.utf8ByteSize ≤ nameLimit)
    (hget : Named.get? name entries = some k)
    (hgo : rest.all String.isEmpty = true → follow = true)
    (hk : v.node? k = some (.link target))
    (h : Leads v follow links (if isAbsolute target then v.root else n) (names target ++ rest)
      spot) : Leads v follow (links + 1) n (name :: rest) spot

/-- One step of the walk in a folder. -/
lemma walk_cons {parent : Nat} {entries : List (String × Nat)}
    (hn : v.node? n = some (.folder parent entries)) (name : String) (rest : List String) :
    v.walk follow links n (name :: rest) =
      if IsIdle name then v.walk follow links n rest
      else if name = ".." then v.walk follow links parent rest
      else if nameLimit < name.utf8ByteSize then .error .nameTooLong
      else
        match Named.get? name entries with
        | none =>
          if rest.all String.isEmpty then .ok (.entry n name (!rest.isEmpty) none)
          else .error .missing
        | some k =>
          match v.node? k with
          | some (.link target) =>
            if rest.all String.isEmpty && !follow then
              .ok (.entry n name (!rest.isEmpty) (some k))
            else
              match links with
              | 0 => .error tooManyLinks
              | links + 1 =>
                v.walk follow links (if isAbsolute target then v.root else n)
                  (names target ++ rest)
          | _ =>
            if rest.all String.isEmpty then .ok (.entry n name (!rest.isEmpty) (some k))
            else v.walk follow links k rest := by
  rw [walk, hn]
  simp only [Bool.or_eq_true, decide_eq_true_eq]
  rfl

/-- Nothing is reached through what is no folder. -/
lemma exists_folder_of_walk {rest : List String}
    (h : v.walk follow links n (name :: rest) = .ok spot) :
    ∃ parent entries, v.node? n = some (.folder parent entries) := by
  rw [walk] at h
  split at h
  case h_1 parent entries hn => exact ⟨parent, entries, hn⟩
  case h_2 => cases h

lemma leads_of_walk (h : v.walk follow links n path = .ok spot) :
    Leads v follow links n path spot := by
  -- a link starts a walk of its own with one link less, every other name goes on with the rest
  induction links using Nat.strongRecOn generalizing n path with
  | ind links ihLinks =>
    induction path generalizing n with
    | nil =>
      rw [walk] at h
      cases h
      exact .here
    | cons name rest ih =>
      obtain ⟨parent, entries, hn⟩ := exists_folder_of_walk h
      rw [walk_cons hn] at h
      split at h
      case isTrue hidle => exact .idle hn hidle (ih h)
      case isFalse hidle =>
      split at h
      case isTrue hup => exact hup ▸ .up hn (ih h)
      case isFalse hup =>
      split at h
      case isTrue => cases h
      case isFalse hshort =>
      have hname : IsEntry name := ⟨hidle, hup⟩
      have hshort := Nat.le_of_not_lt hshort
      cases hget : Named.get? name entries with
      | none =>
        simp only [hget] at h
        split at h
        case isTrue hend =>
          cases h
          exact .missing hn hname hshort hget hend
        case isFalse => cases h
      | some k =>
        simp only [hget] at h
        split at h
        case h_1 target hk =>
          split at h
          case isTrue hstop =>
            cases h
            simp only [Bool.and_eq_true, Bool.not_eq_true'] at hstop
            exact .found hn hname hshort hget hstop.1 fun hfollow => by simp [hstop.2] at hfollow
          case isFalse hgo =>
            cases links with
            | zero => cases h
            | succ links =>
              refine .link hn hname hshort hget (fun hend => ?_) hk (ihLinks links (by omega) h)
              simpa [hend] using hgo
        case h_2 hk =>
          have hlink : v.isLink k = false := by
            rw [← Bool.not_eq_true, isLink_iff]
            rintro ⟨target, htarget⟩
            exact hk target htarget
          split at h
          case isTrue hend =>
            cases h
            exact .found hn hname hshort hget hend fun _ => hlink
          case isFalse hend =>
            exact .inside hn hname hshort hget (by simpa using hend) hlink (ih h)

lemma walk_of_leads (h : Leads v follow links n path spot) :
    v.walk follow links n path = .ok spot := by
  induction h with
  | here => rw [walk]
  | idle hn hname _ ih => rw [walk_cons hn, if_pos hname, ih]
  | up hn _ ih =>
    rw [walk_cons hn, if_neg (by decide), if_pos rfl, ih]
  | missing hn hname hshort hget hend =>
    rw [walk_cons hn, if_neg hname.not_idle, if_neg hname.not_up, if_neg (Nat.not_lt.2 hshort)]
    simp [hget, hend]
  | found hn hname hshort hget hend hstop =>
    rw [walk_cons hn, if_neg hname.not_idle, if_neg hname.not_up, if_neg (Nat.not_lt.2 hshort)]
    simp only [hget, hend]
    split
    case h_1 target hk =>
      have hfollow : follow = false := by simpa [isLink_iff.2 ⟨target, hk⟩] using hstop
      simp [hfollow]
    case h_2 => rfl
  | inside hn hname hshort hget hend hk _ ih =>
    rw [walk_cons hn, if_neg hname.not_idle, if_neg hname.not_up, if_neg (Nat.not_lt.2 hshort)]
    simp only [hget, hend]
    split
    case h_1 target htarget => simp [isLink_iff.2 ⟨target, htarget⟩] at hk
    case h_2 => exact ih
  | link hn hname hshort hget hgo hk _ ih =>
    rw [walk_cons hn, if_neg hname.not_idle, if_neg hname.not_up, if_neg (Nat.not_lt.2 hshort)]
    simp only [hget, hk]
    rw [if_neg, ih]
    simpa using hgo

/-- The walk along a path as a relation. -/
theorem walk_eq_ok_iff :
    v.walk follow links n path = .ok spot ↔ Leads v follow links n path spot :=
  ⟨leads_of_walk, walk_of_leads⟩

/-- A spot at the end of a path is a name in a folder with what stands there. -/
lemma Leads.number?_eq {slash : Bool} {found : Option Nat}
    (h : Leads v follow links n path (.entry k name slash found)) :
    v.number? k name = found ∧ IsEntry name ∧ name.utf8ByteSize ≤ nameLimit ∧
      ∃ parent entries, v.node? k = some (.folder parent entries) := by
  generalize hspot : Spot.entry k name slash found = spot at h
  induction h with
  | here => cases hspot
  | idle _ _ _ ih | up _ _ ih | inside _ _ _ _ _ _ _ ih | link _ _ _ _ _ _ _ ih => exact ih hspot
  | missing hn hname hshort hget | found hn hname hshort hget =>
    cases hspot
    exact ⟨(number?_of_folder hn _).trans hget, hname, hshort, _, _, hn⟩

/-- A path that ends with the name of something leads through the folder in which that stands.  A
dot behind the names in front of it leads to that folder itself. -/
lemma Leads.append {front : List String} (hname : IsEntry name)
    (h : Leads v follow links n (front ++ [name]) spot) :
    ∃ m rest, Leads v true links n (front ++ ["."]) (.folder m) ∧
      Leads v follow rest m [name] spot := by
  have hend (front : List String) : (front ++ ["."]).all String.isEmpty = false := by simp
  have hopen (front : List String) : (front ++ [name]).all String.isEmpty = false := by
    have hne : name ≠ "" := fun heq => hname.not_idle (.inl heq)
    simp [hne]
  generalize hpath : front ++ [name] = path at h
  have hself {n parent : Nat} {entries : List (String × Nat)} {links : Nat}
      (hn : v.node? n = some (.folder parent entries)) :
      Leads v true links n ([] ++ ["."]) (.folder n) := .idle hn (.inr rfl) .here
  induction h generalizing front with
  | here => simp at hpath
  | idle hn hidle h ih =>
    cases front with
    | nil =>
      cases hpath
      exact absurd hidle hname.not_idle
    | cons first front =>
      cases hpath
      obtain ⟨m, rest, hfolder, hlast⟩ := ih rfl
      exact ⟨m, rest, .idle hn hidle hfolder, hlast⟩
  | up hn h ih =>
    cases front with
    | nil =>
      cases hpath
      exact absurd rfl hname.not_up
    | cons first front =>
      cases hpath
      obtain ⟨m, rest, hfolder, hlast⟩ := ih rfl
      exact ⟨m, rest, .up hn hfolder, hlast⟩
  | missing hn hfirst hshort hget hall =>
    cases front with
    | nil =>
      cases hpath
      exact ⟨_, 0, hself hn, .missing hn hfirst hshort hget hall⟩
    | cons first front =>
      cases hpath
      simp [hopen] at hall
  | found hn hfirst hshort hget hall hstop =>
    cases front with
    | nil =>
      cases hpath
      exact ⟨_, 0, hself hn, .found hn hfirst hshort hget hall hstop⟩
    | cons first front =>
      cases hpath
      simp [hopen] at hall
  | inside hn hfirst hshort hget hall hk h ih =>
    cases front with
    | nil =>
      cases hpath
      cases hall
    | cons first front =>
      cases hpath
      obtain ⟨m, rest, hfolder, hlast⟩ := ih rfl
      exact ⟨m, rest, .inside hn hfirst hshort hget (hend front) hk hfolder, hlast⟩
  | link hn hfirst hshort hget hgo hk h ih =>
    cases front with
    | nil =>
      cases hpath
      exact ⟨_, _, hself hn, .link hn hfirst hshort hget hgo hk h⟩
    | cons first front =>
      cases hpath
      obtain ⟨m, rest, hfolder, hlast⟩ := ih (List.append_assoc _ _ _)
      rw [List.append_assoc] at hfolder
      exact ⟨m, rest, .link hn hfirst hshort hget (by simp) hk hfolder, hlast⟩

/-! ## Volumes with more in them -/

/-- A volume with all that another one has, but perhaps other texts in files.  What is new under a
name is no link. -/
structure Extends (v v' : Volume) : Prop where
  root_eq : v'.root = v.root
  here_eq : v'.here = v.here
  link {n : Nat} {target : String} : v.node? n = some (.link target) →
    v'.node? n = some (.link target)
  file {n : Nat} : (v.node? n).any Node.isFile = true → (v'.node? n).any Node.isFile = true
  folder {n parent : Nat} {entries : List (String × Nat)} :
    v.node? n = some (.folder parent entries) →
      ∃ entries', v'.node? n = some (.folder parent entries') ∧
        ∀ name k, Named.get? name entries = some k → Named.get? name entries' = some k
  new {n k : Nat} {name : String} : v.number? n name = none → v'.number? n name = some k →
    v'.isLink k = false

namespace Extends

lemma refl (v : Volume) : Extends v v where
  root_eq := rfl
  here_eq := rfl
  link h := h
  file h := h
  folder h := ⟨_, h, fun _ _ hget => hget⟩
  new hnone hsome := by simp [hnone] at hsome

lemma number?_eq (h : Extends v v') (hentry : v.number? n name = some k) :
    v'.number? n name = some k := by
  obtain ⟨node, hnode, hget⟩ := Option.bind_eq_some_iff.1 hentry
  rcases node with s | bytes | ⟨parent, entries⟩ | target
  case folder =>
    obtain ⟨entries', hn, hkept⟩ := h.folder hnode
    exact (number?_of_folder hn name).trans (hkept name k hget)
  all_goals cases hget

/-- What is no link stays none. -/
lemma isLink_eq_false (h : Extends v v') {node : Node} (hnode : v.node? k = some node)
    (hlink : v.isLink k = false) : v'.isLink k = false := by
  rw [isLink, hnode] at hlink
  rcases node with s | bytes | ⟨parent, entries⟩ | target
  case folder =>
    obtain ⟨entries', hk, -⟩ := h.folder hnode
    simp [isLink, hk, Node.isLink]
  case link => cases hlink
  all_goals
    have hfile : (v'.node? k).any Node.isFile = true := h.file (by rw [hnode]; rfl)
    rw [← Bool.not_eq_true, isLink_iff]
    rintro ⟨target, htarget⟩
    rw [htarget] at hfile
    cases hfile

lemma isLink_of_new (h : Extends v v') (hstop : ∀ k, v.number? n name = some k → v.isLink k = false)
    (hentry : v'.number? n name = some k) : v'.isLink k = false := by
  cases hold : v.number? n name with
  | none => exact h.new hold hentry
  | some m =>
    obtain rfl := Option.some.inj ((h.number?_eq hold).symm.trans hentry)
    obtain ⟨node, hnode⟩ := node?_of_number? hold
    exact h.isLink_eq_false hnode (hstop m hold)

lemma trans {v'' : Volume} (h : Extends v v') (h' : Extends v' v'') : Extends v v'' where
  root_eq := h'.root_eq.trans h.root_eq
  here_eq := h'.here_eq.trans h.here_eq
  link hn := h'.link (h.link hn)
  file hn := h'.file (h.file hn)
  folder hn := by
    obtain ⟨entries', hn', hkept⟩ := h.folder hn
    obtain ⟨entries'', hn'', hkept'⟩ := h'.folder hn'
    exact ⟨entries'', hn'', fun name k hget => hkept' name k (hkept name k hget)⟩
  new hnone hsome := by
    refine h'.isLink_of_new (fun k hk => h.new hnone hk) hsome

end Extends

/-- A spot with what stands there in a volume. -/
def Spot.inside (v : Volume) : Spot → Spot
  | .folder n => .folder n
  | .entry n name slash _ => .entry n name slash (v.number? n name)

/-- A path leads to where it led, and finds there what has come in the meantime. -/
lemma Leads.mono (hext : Extends v v') (h : Leads v follow links n path spot) :
    Leads v' follow links n path (spot.inside v') := by
  induction h with
  | here => exact .here
  | idle hn hname _ ih =>
    obtain ⟨entries', hn', -⟩ := hext.folder hn
    exact .idle hn' hname ih
  | up hn _ ih =>
    obtain ⟨entries', hn', -⟩ := hext.folder hn
    exact .up hn' ih
  | @missing _ n parent entries name rest hn hname hshort hget hend =>
    obtain ⟨entries', hn', -⟩ := hext.folder hn
    have hnone := (number?_of_folder hn name).trans hget
    have hentry := number?_of_folder hn' name
    rw [Spot.inside, hentry]
    cases hget' : Named.get? name entries' with
    | none => exact .missing hn' hname hshort hget' hend
    | some k =>
      exact .found hn' hname hshort hget' hend fun _ => hext.new hnone (hentry.trans hget')
  | @found _ n parent k entries name rest hn hname hshort hget hend hstop =>
    obtain ⟨entries', hn', hkept⟩ := hext.folder hn
    have hsome := (number?_of_folder hn name).trans hget
    obtain ⟨node, hnode⟩ := node?_of_number? hsome
    rw [Spot.inside, hext.number?_eq hsome]
    exact .found hn' hname hshort (hkept name k hget) hend fun hfollow =>
      hext.isLink_eq_false hnode (hstop hfollow)
  | @inside _ n parent k entries name rest spot hn hname hshort hget hend hk _ ih =>
    obtain ⟨entries', hn', hkept⟩ := hext.folder hn
    have hsome := (number?_of_folder hn name).trans hget
    obtain ⟨node, hnode⟩ := node?_of_number? hsome
    exact .inside hn' hname hshort (hkept name k hget) hend (hext.isLink_eq_false hnode hk) ih
  | link hn hname hshort hget hgo hk _ ih =>
    obtain ⟨entries', hn', hkept⟩ := hext.folder hn
    rw [← hext.root_eq] at ih
    exact .link hn' hname hshort (hkept _ _ hget) hgo (hext.link hk) ih

/-! ## Folders and the files in them -/

/-- The folder that a path leads to. -/
def folderAt (v : Volume) (path : String) : Option Nat :=
  match v.locate true (join path ".") with
  | .ok (.folder n) => some n
  | _ => none

lemma locate_eq_ok_iff {path : String} :
    v.locate follow path = .ok spot ↔ path ≠ "" ∧ '\x00' ∉ path.toList ∧
      Leads v follow linkLimit (if isAbsolute path then v.root else v.here) (names path) spot := by
  rw [locate, ← walk_eq_ok_iff]
  by_cases hempty : path.isEmpty = true
  · have hnone : path = "" := String.isEmpty_iff.1 hempty
    simp [hnone]
  · have hsome : path ≠ "" := by simpa using hempty
    by_cases hnull : path.toList.contains '\x00' = true
    · have hmem : '\x00' ∈ path.toList := List.contains_iff_mem.1 hnull
      simp [hempty, hmem]
    · have hmem : '\x00' ∉ path.toList := by rwa [← List.contains_iff_mem]
      simp [hempty, hsome, hmem]

/-- A path leads to where it led in what a volume has become. -/
lemma Extends.locate_eq (h : Extends v v') {path : String}
    (hspot : v.locate follow path = .ok spot) :
    v'.locate follow path = .ok (spot.inside v') := by
  rw [locate_eq_ok_iff] at hspot ⊢
  obtain ⟨hne, hnull, hleads⟩ := hspot
  rw [h.root_eq, h.here_eq]
  exact ⟨hne, hnull, hleads.mono h⟩

/-- All names in a folder stand behind the same names of it. -/
lemma exists_names_join (folder : String) :
    ∃ front absolute, ∀ name : String, name ≠ "" → '/' ∉ name.toList →
      names (join folder name) = front ++ [name] ∧ isAbsolute (join folder name) = absolute := by
  by_cases hne : folder = ""
  · refine ⟨[], false, fun name hname hslash => ?_⟩
    have hjoin : join folder name = name := by simp [join, hne]
    rw [hjoin, names_eq_singleton hslash, ← Bool.not_eq_true, isAbsolute_iff]
    refine ⟨rfl, ?_⟩
    rintro ⟨rest, -, hnames⟩
    rw [names_eq_singleton hslash] at hnames
    exact hname (List.cons.inj hnames).1
  · obtain ⟨front, -, hfront⟩ := names_join hne
    exact ⟨front, isAbsolute folder, fun name _ hslash =>
      ⟨hfront name hslash, isAbsolute_join hne name⟩⟩

/-- A path to a name in a folder leads through that folder. -/
lemma exists_folderAt {folder file : String} (hname : IsEntry file) (hslash : '/' ∉ file.toList)
    (hspot : v.locate follow (join folder file) = .ok spot) :
    ∃ m rest, v.folderAt folder = some m ∧ Leads v follow rest m [file] spot := by
  have hne : file ≠ "" := fun heq => hname.not_idle (.inl heq)
  obtain ⟨front, absolute, hnames⟩ := exists_names_join folder
  obtain ⟨hpath, hstart⟩ := hnames file hne hslash
  obtain ⟨hdot, hstart'⟩ := hnames "." (by decide) (by decide)
  obtain ⟨-, hnull, hleads⟩ := locate_eq_ok_iff.1 hspot
  rw [hpath, hstart] at hleads
  obtain ⟨m, rest, hfolder, hlast⟩ := hleads.append hname
  refine ⟨m, rest, ?_, hlast⟩
  have hfound : v.locate true (join folder ".") = .ok (.folder m) := by
    rw [locate_eq_ok_iff, hdot, hstart']
    refine ⟨?_, ?_, hfolder⟩
    · by_cases hempty : folder = ""
      · rw [hempty]
        decide
      · exact join_ne_empty hempty "."
    · rw [mem_join_iff (by decide), not_or] at hnull ⊢
      exact ⟨hnull.1, by decide⟩
  rw [folderAt, hfound]

/-- A name in a folder leads to what stands under it there, if no link is followed. -/
lemma Leads.eq_entry {file : String} (hname : IsEntry file)
    (h : Leads v false links n [file] spot) :
    spot = .entry n file false (v.number? n file) := by
  cases h with
  | idle _ hidle => exact absurd hidle hname.not_idle
  | up => exact absurd rfl hname.not_up
  | missing hn _ _ hget | found hn _ _ hget => rw [number?_of_folder hn, hget]; rfl
  | inside _ _ _ _ hend => cases hend
  | link _ _ _ _ hgo => cases hgo rfl

/-- What is found under a name in a folder stands there, unless the name is that of a link. -/
lemma exists_entry_of_find {folder file : String} (hname : IsEntry file)
    (hslash : '/' ∉ file.toList) (h : v.find (join folder file) = .ok k) :
    ∃ n there, v.folderAt folder = some n ∧ v.number? n file = some there ∧
      (v.isLink there = false → there = k) := by
  obtain ⟨spot, hspot, hfound⟩ := bind_eq_ok.1 h
  obtain ⟨n, rest, hfolder, hleads⟩ := exists_folderAt hname hslash hspot
  cases hleads with
  | idle _ hidle => exact absurd hidle hname.not_idle
  | up => exact absurd rfl hname.not_up
  | missing => cases hfound
  | @found _ _ _ there _ _ _ hn _ _ hget =>
    refine ⟨n, there, hfolder, (number?_of_folder hn file).trans hget, fun _ => ?_⟩
    exact Except.ok.inj hfound
  | inside _ _ _ _ hend => cases hend
  | @link _ _ _ there _ _ target _ _ hn _ _ hget _ hk =>
    refine ⟨n, there, hfolder, (number?_of_folder hn file).trans hget, fun hlink => ?_⟩
    simp [isLink_iff.2 ⟨target, hk⟩] at hlink

/-! ## Changes of nodes -/

section

variable {text : String} {new : Node} {hnew : new.entries = []} {parent : Nat}
  {entries : List (String × Nat)}

lemma node?_setText (v : Volume) {n k : Nat} (hn : (v.node? n).any Node.isFile = true) :
    (v.setText n text).node? k = if k = n then some (.text text) else v.node? k := by
  have hlt : n < v.nodes.length := by
    by_contra hge
    rw [node?, List.getElem?_eq_none (Nat.le_of_not_lt hge)] at hn
    cases hn
  rw [node?, node?, setText, List.getElem?_set]
  by_cases hk : n = k
  · simp [hk, hk ▸ hlt]
  · simp [hk, Ne.symm hk]

lemma number?_setText (hn : (v.node? n).any Node.isFile = true) (m : Nat) (name : String) :
    (v.setText n text).number? m name = v.number? m name := by
  rw [number?, number?, node?_setText v hn]
  by_cases hm : m = n
  · subst hm
    obtain ⟨node, hnode, hfile⟩ := (Option.any_eq_true ..).1 hn
    rw [if_pos rfl, hnode]
    cases node <;> first | rfl | cases hfile
  · rw [if_neg hm]

lemma extends_setText (hn : (v.node? n).any Node.isFile = true) : Extends v (v.setText n text) where
  root_eq := rfl
  here_eq := rfl
  link {m target} hm := by
    have hne : m ≠ n := by
      rintro rfl
      simp [hm, Node.isFile] at hn
    rw [node?_setText v hn, if_neg hne, hm]
  file {m} hm := by
    rw [node?_setText v hn]
    split
    · rfl
    · exact hm
  folder {m parent entries} hm := by
    have hne : m ≠ n := by
      rintro rfl
      simp [hm, Node.isFile] at hn
    exact ⟨entries, by rw [node?_setText v hn, if_neg hne, hm], fun _ _ hget => hget⟩
  new hnone hsome := by
    rw [number?_setText hn] at hsome
    simp [hnone] at hsome

lemma add_eq (hn : v.node? n = some (.folder parent entries)) (name : String) :
    (v.add n name new hnew).nodes =
      v.nodes.set n (.folder parent (Named.insert name v.nodes.length entries)) ++ [new] := by
  unfold add
  split
  case h_1 hfolder =>
    obtain ⟨rfl, rfl⟩ := Node.folder.inj (Option.some.inj (hn.symm.trans hfolder))
    rfl
  case h_2 hother => exact absurd hn (hother _ _)

lemma lt_of_node? {node : Node} (hn : v.node? n = some node) : n < v.nodes.length :=
  (List.getElem?_eq_some_iff.1 hn).1

lemma node?_add (hn : v.node? n = some (.folder parent entries)) (name : String) (k : Nat) :
    (v.add n name new hnew).node? k =
      if k = v.nodes.length then some new
      else if k = n then some (.folder parent (Named.insert name v.nodes.length entries))
      else v.node? k := by
  have hlt := lt_of_node? hn
  rw [node?, add_eq hn, List.getElem?_append, List.length_set, List.getElem?_set]
  rcases Nat.lt_trichotomy k v.nodes.length with hk | rfl | hk
  · by_cases hkn : n = k
    · subst hkn
      simp [hk, Nat.ne_of_lt hk]
    · simp [hk, Nat.ne_of_lt hk, hkn, Ne.symm hkn, node?]
  · simp
  · have hnone : v.node? k = none := List.getElem?_eq_none (Nat.le_of_lt hk)
    have hkn : k ≠ n := by omega
    simp [Nat.not_lt.2 (Nat.le_of_lt hk), Nat.ne_of_gt hk, hkn, hnone, Nat.sub_ne_zero_of_lt hk]

lemma number?_add (hn : v.node? n = some (.folder parent entries)) (name : String) (m : Nat)
    (other : String) :
    (v.add n name new hnew).number? m other =
      if m = n ∧ other = name then some v.nodes.length else v.number? m other := by
  have hlt := lt_of_node? hn
  rw [number?, node?_add hn]
  by_cases hm : m = v.nodes.length
  · have hne : ¬(m = n ∧ other = name) := by
      rintro ⟨rfl, -⟩
      omega
    have hnone : v.node? m = none := List.getElem?_eq_none (Nat.le_of_eq hm.symm)
    rw [if_pos hm, if_neg hne, number?, hnone, Option.bind_some, hnew]
    rfl
  · rw [if_neg hm]
    by_cases hmn : m = n
    · subst hmn
      rw [if_pos rfl, Option.bind_some, Node.entries, Named.get?_insert, number?_of_folder hn]
      simp only [true_and, eq_comm]
    · rw [if_neg hmn, if_neg (fun h => hmn h.1), number?]

/-- What is added under a name that was free extends a volume. -/
lemma extends_add (hn : v.node? n = some (.folder parent entries))
    (hfree : v.number? n name = none) (hlink : new.isLink = false) :
    Extends v (v.add n name new hnew) where
  root_eq := by unfold add; split <;> rfl
  here_eq := by unfold add; split <;> rfl
  link {m target} hm := by
    have hne : m ≠ n := by
      rintro rfl
      simp [hn] at hm
    rw [node?_add hn, if_neg (Nat.ne_of_lt (lt_of_node? hm)), if_neg hne, hm]
  file {m} hm := by
    obtain ⟨node, hnode, hfile⟩ := (Option.any_eq_true ..).1 hm
    have hne : m ≠ n := by
      rintro rfl
      obtain rfl := Option.some.inj (hn.symm.trans hnode)
      cases hfile
    rwa [node?_add hn, if_neg (Nat.ne_of_lt (lt_of_node? hnode)), if_neg hne]
  folder {m above others} hm := by
    rw [node?_add hn, if_neg (Nat.ne_of_lt (lt_of_node? hm))]
    by_cases hmn : m = n
    · subst hmn
      obtain ⟨rfl, rfl⟩ := Node.folder.inj (Option.some.inj (hn.symm.trans hm))
      refine ⟨_, if_pos rfl, fun other k hget => ?_⟩
      have hother : name ≠ other := by
        rintro rfl
        rw [number?_of_folder hn, hget] at hfree
        cases hfree
      rw [Named.get?_insert, if_neg hother, hget]
    · exact ⟨others, by rw [if_neg hmn, hm], fun _ _ hget => hget⟩
  new {m k other} hnone hsome := by
    rw [number?_add hn] at hsome
    split at hsome
    · obtain rfl := Option.some.inj hsome
      rw [isLink, node?_add hn, if_pos rfl]
      exact hlink
    · simp [hnone] at hsome

/-- Nothing changes under the other names. -/
lemma leaf?_add (hn : v.node? n = some (.folder parent entries)) {m : Nat} {other : String}
    (hother : ¬(m = n ∧ other = name)) :
    (v.add n name new hnew).leaf? m other = v.leaf? m other := by
  refine leaf?_congr (by rw [number?_add hn, if_neg hother]) fun k hk => ?_
  obtain ⟨node, hnode⟩ := node?_of_number? hk
  rw [node?_add hn, if_neg (Nat.ne_of_lt (lt_of_node? hnode))]
  split
  case isTrue heq =>
    rw [heq, hn]
    rfl
  case isFalse => rfl

lemma drop_eq (hn : v.node? n = some (.folder parent entries)) (name : String) :
    (v.drop n name).nodes = v.nodes.set n (.folder parent (Named.erase name entries)) := by
  unfold drop
  split
  case h_1 hfolder =>
    obtain ⟨rfl, rfl⟩ := Node.folder.inj (Option.some.inj (hn.symm.trans hfolder))
    rfl
  case h_2 hother => exact absurd hn (hother _ _)

lemma node?_drop (hn : v.node? n = some (.folder parent entries)) (name : String) (k : Nat) :
    (v.drop n name).node? k =
      if k = n then some (.folder parent (Named.erase name entries)) else v.node? k := by
  rw [node?, drop_eq hn, List.getElem?_set]
  by_cases hk : n = k
  · simp [hk, hk ▸ lt_of_node? hn]
  · simp [hk, Ne.symm hk, node?]

lemma number?_drop (hn : v.node? n = some (.folder parent entries)) (name : String) (m : Nat)
    (other : String) :
    (v.drop n name).number? m other =
      if m = n ∧ other = name then none else v.number? m other := by
  rw [number?, node?_drop hn]
  by_cases hm : m = n
  · subst hm
    rw [if_pos rfl, Option.bind_some, Node.entries, Named.get?_erase, number?_of_folder hn]
    simp only [true_and, eq_comm]
  · rw [if_neg hm, if_neg (fun h => hm h.1), number?]

lemma leaf?_drop (hn : v.node? n = some (.folder parent entries)) {m : Nat} {other : String}
    (hother : ¬(m = n ∧ other = name)) : (v.drop n name).leaf? m other = v.leaf? m other := by
  refine leaf?_congr (by rw [number?_drop hn, if_neg hother]) fun k _ => ?_
  rw [node?_drop hn]
  split
  case isTrue heq =>
    rw [heq, hn]
    rfl
  case isFalse => rfl

end

/-- A volume that has some folders more, and is the same otherwise. -/
structure Grows (v v' : Volume) : Prop where
  extend : Extends v v'
  leaf?_eq (n : Nat) (name : String) : v'.leaf? n name = v.leaf? n name

lemma Grows.refl (v : Volume) : Grows v v := ⟨.refl v, fun _ _ => rfl⟩

lemma Grows.trans {v'' : Volume} (h : Grows v v') (h' : Grows v' v'') : Grows v v'' :=
  ⟨h.extend.trans h'.extend, fun n name => (h'.leaf?_eq n name).trans (h.leaf?_eq n name)⟩

/-! ## Requests -/

section

variable {α : Type} {r : Request} {answer : Except Fault α} {x : α} {path text : String}

/-- What is served is not refused. -/
lemma of_serve (h : v.serve r answer = .ok x) : answer = .ok x := by
  unfold serve at h
  split at h
  · cases h
  · exact h

/-- A volume after a text was written: the file that the path leads to has it, and nothing has
changed under names that are not those of this file. -/
structure Written (v : Volume) (path text : String) (k : Nat) (v' : Volume) : Prop where
  extend : Extends v v'
  find_eq : v'.find path = .ok k
  node?_eq : v'.node? k = some (.text text)
  leaf?_eq {n : Nat} {name : String} : v'.number? n name ≠ some k → v'.leaf? n name = v.leaf? n name

lemma find_of_locate {n k : Nat} {name : String}
    (h : v.locate true path = .ok (.entry n name false (some k))) :
    v.find path = .ok k := by
  rw [find, h]
  rfl

/-- A file that is made has its text, and no other name. -/
lemma written_add {n : Nat} {name : String}
    (hspot : v.locate true path = .ok (.entry n name false none)) (text : String) :
    Written v path text v.nodes.length (v.add n name (.text text) (Node.entries_text text)) := by
  obtain ⟨hfree, -, -, parent, entries, hn⟩ := (locate_eq_ok_iff.1 hspot).2.2.number?_eq
  have hext : Extends v (v.add n name (.text text) (Node.entries_text text)) :=
    extends_add hn hfree rfl
  have hnew : (v.add n name (.text text) (Node.entries_text text)).number? n name =
      some v.nodes.length := by
    rw [number?_add hn, if_pos ⟨rfl, rfl⟩]
  have hfound := hext.locate_eq hspot
  rw [Spot.inside, hnew] at hfound
  refine ⟨hext, find_of_locate hfound, ?_, fun {m other} hother => leaf?_add hn ?_⟩
  · rw [node?_add hn, if_pos rfl]
  · rintro ⟨rfl, rfl⟩
    exact hother hnew

/-- A file that was there has its text under all its names. -/
lemma written_setText {n k : Nat} {name : String}
    (hspot : v.locate true path = .ok (.entry n name false (some k)))
    (hfile : (v.node? k).any Node.isFile = true) (text : String) :
    Written v path text k (v.setText k text) := by
  have hentry := (locate_eq_ok_iff.1 hspot).2.2.number?_eq.1
  have hext : Extends v (v.setText k text) := extends_setText hfile
  have hfound := hext.locate_eq hspot
  rw [Spot.inside, number?_setText hfile, hentry] at hfound
  refine ⟨hext, find_of_locate hfound, ?_, fun {m other} hother => ?_⟩
  · rw [node?_setText v hfile, if_pos rfl]
  · rw [number?_setText hfile] at hother
    refine leaf?_congr (number?_setText hfile m other) fun j hj => ?_
    rw [node?_setText v hfile, if_neg]
    rintro rfl
    exact hother hj

/-- A text that is written is in the file that the path leads to, behind all links. -/
theorem exists_written (h : v.write path text = .ok v') : ∃ k, Written v path text k v' := by
  obtain ⟨spot, hspot, hwrite⟩ := bind_eq_ok.1 (of_serve h)
  rcases spot with m | ⟨n, name, - | -, - | k⟩
  · cases hwrite
  · obtain rfl := Except.ok.inj hwrite
    exact ⟨_, written_add hspot text⟩
  · simp only at hwrite
    split at hwrite
    case isTrue hfile =>
      obtain rfl := Except.ok.inj hwrite
      exact ⟨k, written_setText hspot hfile text⟩
    case isFalse => cases hwrite
  · cases hwrite
  · cases hwrite

/-- Making a folder changes nothing but that there is one more. -/
theorem grows_of_makeFolder (h : v.makeFolder path = .ok v') : Grows v v' := by
  obtain ⟨spot, hspot, hmake⟩ := bind_eq_ok.1 (of_serve h)
  rcases spot with m | ⟨n, name, slash, - | k⟩
  · cases hmake
  · obtain ⟨hentry, -, -, parent, entries, hn⟩ := (locate_eq_ok_iff.1 hspot).2.2.number?_eq
    obtain rfl := Except.ok.inj hmake
    refine ⟨extends_add hn hentry rfl, fun m other => ?_⟩
    by_cases hother : m = n ∧ other = name
    · -- the new folder is no file, and nothing was there before
      obtain ⟨rfl, rfl⟩ := hother
      rw [leaf?, leaf?, number?_add hn, if_pos ⟨rfl, rfl⟩, hentry, Option.bind_some, node?_add hn,
        if_pos rfl]
      rfl
    · exact leaf?_add hn hother
  · cases hmake

/-- Removing takes away one name, that of a file or a link, where no link is followed. -/
theorem removed_of_remove (h : v.remove path = .ok v') :
    ∃ n name k, v.locate false path = .ok (.entry n name false (some k)) ∧
      ∃ parent entries, v.node? n = some (.folder parent entries) ∧ v' = v.drop n name := by
  obtain ⟨spot, hspot, hremove⟩ := bind_eq_ok.1 (of_serve h)
  rcases spot with m | ⟨n, name, slash, - | k⟩
  · cases hremove
  · cases hremove
  · obtain ⟨-, -, -, hfolder⟩ := (locate_eq_ok_iff.1 hspot).2.2.number?_eq
    simp only at hremove
    split at hremove
    · cases hremove
    · cases slash with
      | true => cases hremove
      | false =>
        obtain ⟨parent, entries, hn⟩ := hfolder
        exact ⟨n, name, k, hspot, parent, entries, hn, (Except.ok.inj hremove).symm⟩

end

/-! ## Making the folders of a path -/

/-- What a program may make of a volume, whatever it answers. -/
def Steps (R : Volume → Volume → Prop) {α : Type} (x : StateM Volume α) : Prop :=
  ∀ v, R v (x.run v).2

section

variable {R : Volume → Volume → Prop} {α β : Type}

lemma Steps.pure (hrefl : ∀ v, R v v) (a : α) : Steps R (Pure.pure a : StateM Volume α) := hrefl

lemma Steps.bind (htrans : ∀ {v v' v''}, R v v' → R v' v'' → R v v'') {x : StateM Volume α}
    {f : α → StateM Volume β} (hx : Steps R x) (hf : ∀ a, Steps R (f a)) : Steps R (x >>= f) :=
  fun v => htrans (hx v) (hf (x.run v).1 (x.run v).2)

end

lemma run_change (op : Volume → Except Fault Volume) (v : Volume) :
    (change op).run v =
      match op v with
      | .ok v' => (.ok (), v')
      | .error fault => (.error fault, v) := by
  unfold change
  cases h : op v <;> simp [h] <;> rfl

lemma steps_makeFolder (path : String) :
    Steps Grows (Host.makeFolder path : StateM Volume (Except Fault Unit)) := by
  intro v
  have hrun : (Host.makeFolder path : StateM Volume (Except Fault Unit)).run v = _ :=
    run_change (·.makeFolder path) v
  rw [hrun]
  cases hmake : v.makeFolder path with
  | error fault => exact .refl v
  | ok v' => exact grows_of_makeFolder hmake

lemma steps_makeFolderOnce (path : String) (fault : Fault) :
    Steps Grows (makeFolderOnce path fault : StateM Volume (Except Fault Unit)) := by
  have hlook : Steps Grows (Host.isFolder path : StateM Volume Bool) := fun v => .refl v
  refine .bind .trans hlook fun there => ?_
  cases there <;> exact .pure .refl _

/-- Folders are made and nothing else, as far as that goes. -/
theorem steps_makeFoldersWithin (depth : Nat) (path : String) :
    Steps Grows (makeFoldersWithin depth path : StateM Volume (Except Fault Unit)) := by
  induction depth generalizing path with
  | zero => exact .pure .refl _
  | succ depth ih =>
    rw [makeFoldersWithin]
    split
    case isTrue => exact .pure .refl _
    case isFalse =>
      refine .bind .trans (steps_makeFolder path) fun made => ?_
      split
      case h_1 => exact .pure .refl _
      case h_2 =>
        split
        case h_1 => exact .pure .refl _
        case h_2 parent hparent =>
          refine .bind .trans (ih parent) fun above => ?_
          split
          case h_1 => exact .pure .refl _
          case h_2 =>
            refine .bind .trans (steps_makeFolder path) fun again => ?_
            split
            case h_1 => exact .pure .refl _
            case h_2 => exact steps_makeFolderOnce path _
      case h_3 => exact steps_makeFolderOnce path _

end Volume

end Pipework.Disk
