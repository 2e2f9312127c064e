import Pipework.Proofs.Disk.Machine

/-!
# Making the folders of a path

`Made depth path d result d'` says what making a folder and those around it does to a machine, with
one constructor for each way it can go; `made_run` and `Made.run_eq` say that this is what the
program does.  Everything else follows from the constructors.

`Lacks d path` says that what a path leads to does not exist.  From there on either the folder is
made, and then it is empty (`Made.opens`), or it is not.  In that case it is still lacking
(`Made.lacks`), and trying again fails again and changes nothing more (`Made.again`), although some
of the folders around it may have been made.
-/

namespace Pipework.Disk

namespace Machine

/-! ## Where a path and the one above it lead -/

section Parent

variable {d d' : Machine} {path parent last : String} {front between behind : List String}

lemma exists_not_idle_of_missing {root : Tree} {way l : List String}
    (h : walk root way l = .error .missing) : ∃ name ∈ l, ¬IsIdle name := by
  induction l generalizing way with
  | nil => cases h
  | cons name rest ih =>
    by_cases hidle : IsIdle name
    · by_cases hfolder : root.HasFolder way
      · rw [walk_cons hfolder, if_pos hidle] at h
        obtain ⟨other, hother, hnot⟩ := ih h
        exact ⟨other, List.mem_cons_of_mem _ hother, hnot⟩
      · rw [walk_eq_error hfolder (List.cons_ne_nil _ _)] at h
        cases h
    · exact ⟨name, List.mem_cons_self, hidle⟩

/-- A path above another one leads to the folder that the names in front of the last one enter. -/
lemma folderAt_parent (h : ParentOf path parent front between last behind)
    (hnull : ¬path.toList.contains '\x00' = true) :
    d.folderAt parent =
      enter d.root (if isAbsolute path then [] else d.here) (front ++ between) := by
  have hparentNull : ¬parent.toList.contains '\x00' = true := by
    rw [List.contains_iff_mem] at hnull ⊢
    exact fun hmem => hnull (h.mem_of_mem (by decide) hmem)
  rw [folderAt, if_neg hparentNull, h.absolute_eq, enter_append_idle front h.between_idle]
  rcases h.names_parent with heq | heq
  · rw [heq]
  · rw [heq, enter_append_idle front (List.forall_mem_singleton.2 (.inl rfl))]

/-- A path that leads somewhere leads on from the folder above. -/
lemma walk_parent {spot : Spot} (h : ParentOf path parent front between last behind)
    (hspot : d.locate path = .ok spot) :
    ∃ way, d.folderAt parent = some way ∧ walk d.root way (last :: behind) = .ok spot := by
  obtain ⟨hnull, hwalk⟩ := locate_eq_walk hspot
  have hrest : ∃ name ∈ last :: behind, name ≠ "" := ⟨last, List.mem_cons_self, h.last_ne⟩
  rw [h.names_eq] at hwalk
  rw [folderAt_parent h hnull]
  cases henter : enter d.root (if isAbsolute path then [] else d.here) (front ++ between) with
  | none =>
    obtain ⟨fault, hfault⟩ := walk_append_error hrest henter
    rw [hfault] at hwalk
    cases hwalk
  | some way => exact ⟨way, rfl, (walk_append hrest henter).symm.trans hwalk⟩

/-- The last name of a path on which something is missing. -/
lemma last_not_idle (h : ParentOf path parent front between last behind) (hne : path ≠ "")
    (hmissing : d.locate path = .error .missing) : ¬IsIdle last := by
  rintro (hlast | hlast)
  · exact h.last_ne hlast
  · have hnonempty : ¬path.isEmpty = true := by simpa using hne
    rw [locate, if_neg hnonempty] at hmissing
    split at hmissing
    · cases hmissing
    · obtain ⟨name, hname, hnot⟩ := exists_not_idle_of_missing hmissing
      rw [h.names_eq, List.mem_append, List.mem_cons] at hname
      rcases hname with hname | rfl | hname
      · exact hnot (h.front_idle hlast name hname)
      · exact hnot (.inr hlast)
      · exact hnot (h.behind_idle name hname)

/-- Nothing is found behind an empty folder. -/
lemma find_ne_ok_of_opens_nil (h : ParentOf path parent front between last behind)
    (hidle : ¬IsIdle last) (hup : last ≠ "..") {way : List String} (hopens : Opens d parent way [])
    (t : Tree) : d.find path ≠ .ok t := by
  intro hfind
  rw [find_eq] at hfind
  cases hspot : d.locate path with
  | error fault =>
    rw [hspot] at hfind
    cases hfind
  | ok spot =>
    rw [hspot] at hfind
    obtain ⟨way', hway', hwalk⟩ := walk_parent h hspot
    obtain rfl := Option.some.inj (hopens.folderAt_eq.symm.trans hway')
    have hnone : d.root.get? (way ++ [last]) = none := Tree.get?_entry hopens.get?_eq last
    rw [walk_cons ⟨_, hopens.get?_eq⟩, if_neg hidle, if_neg hup, hnone] at hwalk
    split at hwalk
    · cases hwalk
    · split at hwalk
      · obtain rfl := Except.ok.inj hwalk
        cases hfind
      · cases hwalk

end Parent

/-! ## Making one folder -/

section Once

variable {d d' : Machine} {path : String}

lemma locate_eq_missing (h : d.makeFolder path = .error .missing) :
    d.locate path = .error .missing := by
  rw [makeFolder] at h
  cases hspot : d.locate path with
  | error fault =>
    rw [hspot] at h
    exact congrArg _ (Except.error.inj h)
  | ok spot =>
    rw [hspot] at h
    rcases spot with way | ⟨way, slash, - | t⟩ <;> cases h

lemma makeFolder_of_find {t : Tree} (h : d.find path = .ok t) :
    d.makeFolder path = .error .taken := by
  rw [find_eq] at h
  rw [makeFolder]
  cases hspot : d.locate path with
  | error fault =>
    rw [hspot] at h
    cases h
  | ok spot =>
    rw [hspot] at h
    rcases spot with way | ⟨way, slash, - | t⟩
    · rfl
    · cases h
    · rfl

end Once

/-- Whether a folder is found at a path. -/
def isFolder (d : Machine) (path : String) : Bool :=
  match d.find path with
  | .ok t => t.isFolder
  | .error _ => false

lemma isFolder_iff {d : Machine} {path : String} :
    d.isFolder path = true ↔ ∃ entries, d.find path = .ok (.folder entries) := by
  unfold isFolder
  cases d.find path with
  | error fault => simp
  | ok t => cases t <;> simp [Tree.isFolder]

/-- Making a folder and at most `depth` of those around it. -/
inductive Made : Nat → String → Machine → Except Fault Unit → Machine → Prop where
  | tooDeep {path : String} {d : Machine} : Made 0 path d (.error .noParent) d
  | nothing {depth : Nat} {d : Machine} : Made (depth + 1) "" d (.ok ()) d
  | new {depth : Nat} {path : String} {d d' : Machine} (hne : path ≠ "")
    (h : d.makeFolder path = .ok d') : Made (depth + 1) path d (.ok ()) d'
  | there {depth : Nat} {path : String} {d : Machine} {fault : Fault} (hne : path ≠ "")
    (h : d.makeFolder path = .error fault) (hfault : fault ≠ .missing)
    (hfolder : d.isFolder path = true) : Made (depth + 1) path d (.ok ()) d
  | blocked {depth : Nat} {path : String} {d : Machine} {fault : Fault} (hne : path ≠ "")
    (h : d.makeFolder path = .error fault) (hfault : fault ≠ .missing)
    (hfolder : d.isFolder path = false) : Made (depth + 1) path d (.error fault) d
  | rootless {depth : Nat} {path : String} {d : Machine} (hne : path ≠ "")
    (h : d.makeFolder path = .error .missing) (hparent : parent? path = none) :
    Made (depth + 1) path d (.error .noParent) d
  | failed {depth : Nat} {path parent : String} {d d' : Machine} {fault : Fault} (hne : path ≠ "")
    (h : d.makeFolder path = .error .missing) (hparent : parent? path = some parent)
    (hmade : Made depth parent d (.error fault) d') : Made (depth + 1) path d (.error fault) d'
  | inside {depth : Nat} {path parent : String} {d d' d'' : Machine} (hne : path ≠ "")
    (h : d.makeFolder path = .error .missing) (hparent : parent? path = some parent)
    (hmade : Made depth parent d (.ok ()) d') (h' : d'.makeFolder path = .ok d'') :
    Made (depth + 1) path d (.ok ()) d''
  | insideThere {depth : Nat} {path parent : String} {d d' : Machine} {fault : Fault}
    (hne : path ≠ "") (h : d.makeFolder path = .error .missing)
    (hparent : parent? path = some parent) (hmade : Made depth parent d (.ok ()) d')
    (h' : d'.makeFolder path = .error fault)
    (hfolder : d'.isFolder path = true) : Made (depth + 1) path d (.ok ()) d'
  | insideBlocked {depth : Nat} {path parent : String} {d d' : Machine} {fault : Fault}
    (hne : path ≠ "") (h : d.makeFolder path = .error .missing)
    (hparent : parent? path = some parent) (hmade : Made depth parent d (.ok ()) d')
    (h' : d'.makeFolder path = .error fault)
    (hfolder : d'.isFolder path = false) : Made (depth + 1) path d (.error fault) d'

/-- A computation that goes on after a known step. -/
lemma run_bind_eq {σ α β : Type} {x : StateM σ α} {f : α → StateM σ β} {s s' : σ} {a : α}
    (h : x.run s = (a, s')) : (x >>= f).run s = (f a).run s' := by
  rw [StateT.run_bind, h]
  rfl

lemma run_change_ok (op : Machine → Except Fault Machine) {d d' : Machine} (h : op d = .ok d') :
    (change op).run d = (.ok (), d') := by
  unfold change
  simp [h]
  rfl

lemma run_change_error (op : Machine → Except Fault Machine) {d : Machine} {fault : Fault}
    (h : op d = .error fault) : (change op).run d = (.error fault, d) := by
  unfold change
  simp [h]
  rfl

lemma run_makeFolder_ok {path : String} {d d' : Machine} (h : d.makeFolder path = .ok d') :
    (Host.makeFolder path : StateM Machine (Except Fault Unit)).run d = (.ok (), d') :=
  run_change_ok (·.makeFolder path) h

lemma run_makeFolder_error {path : String} {d : Machine} {fault : Fault}
    (h : d.makeFolder path = .error fault) :
    (Host.makeFolder path : StateM Machine (Except Fault Unit)).run d = (.error fault, d) :=
  run_change_error (·.makeFolder path) h

lemma run_makeFolderOnce (path : String) (fault : Fault) (d : Machine) :
    (makeFolderOnce path fault : StateM Machine (Except Fault Unit)).run d =
      (if d.isFolder path then .ok () else .error fault, d) := by
  have hrun : (Host.isFolder path : StateM Machine Bool).run d = (d.isFolder path, d) := by
    show (do return match (← get).find path with
      | .ok t => t.isFolder
      | .error _ => false : StateM Machine Bool).run d = _
    unfold isFolder
    rfl
  unfold makeFolderOnce
  rw [StateT.run_bind, hrun]
  cases d.isFolder path <;> rfl

/-- One level of making folders. -/
lemma run_makeFoldersWithin {path : String} (hne : path ≠ "") (depth : Nat) (d : Machine) :
    (makeFoldersWithin (depth + 1) path : StateM Machine (Except Fault Unit)).run d =
      match d.makeFolder path with
      | .ok d' => (.ok (), d')
      | .error .missing =>
        match parent? path with
        | none => (.error .noParent, d)
        | some parent =>
          match (makeFoldersWithin depth parent : StateM Machine (Except Fault Unit)).run d with
          | (.error fault, d') => (.error fault, d')
          | (.ok (), d') =>
            match d'.makeFolder path with
            | .ok d'' => (.ok (), d'')
            | .error fault => (if d'.isFolder path then .ok () else .error fault, d')
      | .error fault => (if d.isFolder path then .ok () else .error fault, d) := by
  have hnonempty : path.isEmpty = false := by simpa using hne
  rw [makeFoldersWithin, hnonempty]
  simp only [Bool.false_eq_true, if_false]
  cases hmake : d.makeFolder path with
  | ok d' =>
    rw [run_bind_eq (run_makeFolder_ok hmake)]
    rfl
  | error fault =>
    rw [run_bind_eq (run_makeFolder_error hmake)]
    cases fault
    case missing =>
      cases parent? path with
      | none => rfl
      | some parent =>
        cases hrun : (makeFoldersWithin depth parent : StateM Machine (Except Fault Unit)).run d
          with
        | mk result d' =>
          simp only
          rw [run_bind_eq hrun, hrun]
          cases result with
          | error fault => rfl
          | ok =>
            simp only
            cases hmake' : d'.makeFolder path with
            | ok d'' => exact run_bind_eq (run_makeFolder_ok hmake')
            | error fault =>
              exact (run_bind_eq (run_makeFolder_error hmake')).trans (run_makeFolderOnce ..)
    all_goals exact run_makeFolderOnce ..

/-- What is done when folders are made. -/
theorem made_run (depth : Nat) (path : String) (d : Machine) :
    Made depth path d ((makeFoldersWithin depth path : StateM Machine (Except Fault Unit)).run d).1
      ((makeFoldersWithin depth path : StateM Machine (Except Fault Unit)).run d).2 := by
  induction depth generalizing path d with
  | zero => exact .tooDeep
  | succ depth ih =>
    by_cases hne : path = ""
    · subst hne
      exact .nothing
    · rw [run_makeFoldersWithin hne]
      split
      case h_1 d' hmake => exact .new hne hmake
      case h_2 hmake =>
        split
        case h_1 hparent => exact .rootless hne hmake hparent
        case h_2 parent hparent =>
          have hmade := ih parent d
          split
          case h_1 fault d' hrun =>
            rw [hrun] at hmade
            exact .failed hne hmake hparent hmade
          case h_2 d' hrun =>
            rw [hrun] at hmade
            split
            case h_1 d'' hmake' => exact .inside hne hmake hparent hmade hmake'
            case h_2 fault hmake' =>
              cases hfolder : d'.isFolder path with
              | true => exact .insideThere hne hmake hparent hmade hmake' hfolder
              | false => exact .insideBlocked hne hmake hparent hmade hmake' hfolder
      case h_3 fault hfault hmake =>
        cases hfolder : d.isFolder path with
        | true => exact .there hne hmake hfault hfolder
        | false => exact .blocked hne hmake hfault hfolder

/-- Nothing else is done. -/
theorem Made.run_eq {depth : Nat} {path : String} {d d' : Machine} {result : Except Fault Unit}
    (h : Made depth path d result d') :
    (makeFoldersWithin depth path : StateM Machine (Except Fault Unit)).run d = (result, d') := by
  induction h with
  | tooDeep => rfl
  | nothing => rfl
  | new hne h => rw [run_makeFoldersWithin hne, h]
  | there hne h hfault hfolder =>
    rw [run_makeFoldersWithin hne, h, hfolder]
    cases_type Fault <;> first | contradiction | rfl
  | blocked hne h hfault hfolder =>
    rw [run_makeFoldersWithin hne, h, hfolder]
    cases_type Fault <;> first | contradiction | rfl
  | rootless hne h hparent =>
    rw [run_makeFoldersWithin hne, h]
    simp only [hparent]
  | failed hne h hparent _ ih =>
    rw [run_makeFoldersWithin hne, h]
    simp only [hparent, ih]
  | inside hne h hparent _ h' ih =>
    rw [run_makeFoldersWithin hne, h]
    simp only [hparent, ih, h']
  | insideThere hne h hparent _ h' hfolder ih =>
    rw [run_makeFoldersWithin hne, h]
    simp only [hparent, ih, h', hfolder, if_true]
  | insideBlocked hne h hparent _ h' hfolder ih =>
    rw [run_makeFoldersWithin hne, h]
    simp only [hparent, ih, h', hfolder, Bool.false_eq_true, if_false]

/-! ## What is there afterwards -/

section Made

variable {depth : Nat} {path : String} {d d' : Machine} {result : Except Fault Unit} {fault : Fault}

/-- No folder goes away. -/
lemma Made.extends (h : Made depth path d result d') : Extends d d' := by
  induction h with
  | tooDeep | nothing | there | blocked | rootless => exact .refl _
  | new _ h => exact (opens_of_makeFolder h).1
  | failed _ _ _ _ ih | insideThere _ _ _ _ _ _ ih | insideBlocked _ _ _ _ _ _ ih => exact ih
  | inside _ _ _ _ h' ih => exact ih.trans (opens_of_makeFolder h').1

/-- The path is a folder if it was made. -/
lemma Made.isFolder (h : Made depth path d (.ok ()) d') (hne : path ≠ "") :
    d'.isFolder path = true := by
  cases h with
  | nothing => contradiction
  | there _ _ _ hfolder | insideThere _ _ _ _ _ hfolder => exact hfolder
  | new _ h | inside _ _ _ _ h =>
    obtain ⟨-, way, hopens⟩ := opens_of_makeFolder h
    exact isFolder_iff.2 ⟨[], (find_eq_folder_iff hne).2 ⟨way, hopens.folderAt_eq, hopens.get?_eq⟩⟩

/-- Where something is, nothing is done. -/
lemma Made.eq_of_find (h : Made depth path d result d') {t : Tree} (hfind : d.find path = .ok t) :
    d' = d := by
  have htaken := makeFolder_of_find hfind
  cases h with
  | tooDeep | nothing | there | blocked | rootless => rfl
  | new _ h | failed _ h | inside _ h | insideThere _ h | insideBlocked _ h =>
    rw [htaken] at h
    cases h

/-- Making a folder that is there succeeds. -/
lemma Made.of_isFolder (hne : path ≠ "") (h : d.isFolder path = true) (depth : Nat) :
    Made (depth + 1) path d (.ok ()) d := by
  obtain ⟨entries, hfind⟩ := isFolder_iff.1 h
  exact .there hne (makeFolder_of_find hfind) (by simp) h

/-- A folder that could not be made is not there. -/
lemma Made.isFolder_eq_false (h : Made (depth + 1) path d (.error fault) d) :
    path ≠ "" ∧ d.isFolder path = false := by
  have hne : path ≠ "" := by
    rintro rfl
    cases h <;> contradiction
  refine ⟨hne, Bool.eq_false_iff.2 fun hfolder => ?_⟩
  have hrun := (Made.of_isFolder hne hfolder depth).run_eq.symm.trans h.run_eq
  cases hrun

/-- What was made is not made again. -/
lemma Made.again_ok (h : Made depth path d (.ok ()) d') : Made depth path d' (.ok ()) d' := by
  cases depth with
  | zero => cases h
  | succ depth =>
    by_cases hne : path = ""
    · subst hne
      exact .nothing
    · exact .of_isFolder hne (h.isFolder hne) depth

/-- Where the folder above cannot be made, the path leads nowhere. -/
lemma locate_of_above {parent : String} (hparent : parent? path = some parent)
    (h : Made (depth + 1) parent d (.error fault) d) : ∃ fault', d.locate path = .error fault' := by
  obtain ⟨hne, hfolder⟩ := h.isFolder_eq_false
  obtain ⟨front, between, last, behind, hnames⟩ := names_parent? hparent
  cases hspot : d.locate path with
  | error fault' => exact ⟨fault', rfl⟩
  | ok spot =>
    obtain ⟨way, hway, -⟩ := walk_parent hnames hspot
    rw [isFolder_iff.2 ((exists_folder_iff hne).2 ⟨way, hway⟩)] at hfolder
    cases hfolder

lemma isFolder_of_locate_error {d : Machine} (h : d.locate path = .error fault) :
    d.isFolder path = false := by
  rw [isFolder, find_eq, h]
  rfl

/-- What could not be made cannot be made at a second time, and then nothing is done. -/
theorem Made.again (h : Made depth path d (.error fault) d') :
    ∃ fault', Made depth path d' (.error fault') d' := by
  generalize hresult : (Except.error fault : Except Fault Unit) = result at h
  induction h generalizing fault with
  | tooDeep => exact ⟨_, .tooDeep⟩
  | nothing | new | there | inside | insideThere => cases hresult
  | blocked hne h hfault hfolder => exact ⟨_, .blocked hne h hfault hfolder⟩
  | rootless hne h hparent => exact ⟨_, .rootless hne h hparent⟩
  | @failed depth path parent d d' _ hne h hparent hmade ih =>
    obtain ⟨fault', hagain⟩ := ih rfl
    cases depth with
    | zero =>
      cases hmade
      exact ⟨_, .failed hne h hparent .tooDeep⟩
    | succ depth =>
      -- the folder above cannot be made on `d'` either, so that nothing was made of the path
      obtain ⟨fault'', hlocate⟩ := locate_of_above hparent hagain
      have hmake : d'.makeFolder path = .error fault'' := by
        rw [makeFolder, hlocate]
        rfl
      by_cases hmissing : fault'' = .missing
      · subst hmissing
        exact ⟨_, .failed hne hmake hparent hagain⟩
      · exact ⟨_, .blocked hne hmake hmissing (isFolder_of_locate_error hlocate)⟩
  | @insideBlocked depth path parent d d' fault' hne h hparent hmade h' hfolder _ =>
    by_cases hmissing : fault' = .missing
    · subst hmissing
      exact ⟨_, .insideBlocked hne h' hparent hmade.again_ok h' hfolder⟩
    · exact ⟨_, .blocked hne h' hmissing hfolder⟩

end Made

/-! ## What does not exist yet -/

/-- What a path leads to does not exist.  The empty path leads to no folder of its own.  Two dots
behind a missing name are left out: the folder of that name would be made first, perhaps in the very
folder that the path leads to, as in `a/b/..`, and that folder may be there already. -/
structure Lacks (d : Machine) (path : String) : Prop where
  ne_empty : path ≠ ""
  not_found : ∀ t, d.find path ≠ .ok t
  not_beside : ".." ∉ names path ∨ ∃ way slash, d.locate path = .ok (.entry way slash none)

section Lacks

variable {depth : Nat} {path parent : String} {d d' : Machine} {fault : Fault}

lemma Lacks.isFolder_eq_false (h : Lacks d path) : d.isFolder path = false := by
  rw [← Bool.not_eq_true, isFolder_iff]
  rintro ⟨entries, hfind⟩
  exact h.not_found _ hfind

/-- A folder above is missing only where the path has no two dots. -/
lemma Lacks.up_notMem (h : Lacks d path) (hmissing : d.makeFolder path = .error .missing) :
    ".." ∉ names path := by
  refine h.not_beside.resolve_right ?_
  rintro ⟨way, slash, hspot⟩
  rw [locate_eq_missing hmissing] at hspot
  cases hspot

/-- Nothing is found inside a folder that was only made now. -/
lemma Lacks.find_ne_ok (h : Lacks d path) (hmissing : d.makeFolder path = .error .missing)
    (hparent : parent? path = some parent) (hmade : Made depth parent d (.ok ()) d')
    (hopens : Lacks d parent → ∃ way, Opens d' parent way []) (t : Tree) :
    d'.find path ≠ .ok t := by
  have hup := h.up_notMem hmissing
  obtain ⟨front, between, last, behind, hnames⟩ := names_parent? hparent
  by_cases hsame : d' = d
  · rw [hsame]
    exact h.not_found t
  · -- something was done, so that the folder above was lacking and now is empty
    have hlacks : Lacks d parent := by
      refine ⟨?_, fun t hfind => hsame (hmade.eq_of_find hfind), .inl fun hmem => hup ?_⟩
      · rintro rfl
        cases hmade <;> contradiction
      · rw [hnames.names_eq]
        rcases hnames.names_parent with heq | heq <;> rw [heq] at hmem <;> simp_all
    obtain ⟨way, hway⟩ := hopens hlacks
    have hlast : last ≠ ".." := by
      rintro rfl
      exact hup (by rw [hnames.names_eq]; simp)
    exact find_ne_ok_of_opens_nil hnames
      (last_not_idle hnames h.ne_empty (locate_eq_missing hmissing)) hlast hway t

/-- A folder that did not exist is empty when it is made. -/
theorem Made.opens (hmade : Made depth path d (.ok ()) d') (h : Lacks d path) :
    ∃ way, Opens d' path way [] := by
  -- the induction is needed where the path turns out to be there once the folder above is made
  generalize hresult : (Except.ok () : Except Fault Unit) = result at hmade
  induction hmade with
  | tooDeep | blocked | rootless | failed | insideBlocked => cases hresult
  | nothing => exact absurd rfl h.ne_empty
  | new _ hmake => exact (opens_of_makeFolder hmake).2
  | there _ _ _ hfolder =>
    rw [h.isFolder_eq_false] at hfolder
    cases hfolder
  | inside _ _ _ _ hmake => exact (opens_of_makeFolder hmake).2
  | insideThere _ hmissing hparent hmade _ hfolder ih =>
    obtain ⟨entries, hfind⟩ := isFolder_iff.1 hfolder
    exact absurd hfind (h.find_ne_ok hmissing hparent hmade (fun hlacks => ih hlacks rfl) _)

/-- A folder that did not exist and could not be made does still not exist. -/
theorem Made.lacks (hmade : Made depth path d (.error fault) d') (h : Lacks d path) :
    Lacks d' path := by
  cases hmade with
  | tooDeep | blocked | rootless => exact h
  | insideBlocked _ hmissing hparent hmade =>
    exact ⟨h.ne_empty, h.find_ne_ok hmissing hparent hmade hmade.opens, .inl (h.up_notMem hmissing)⟩
  | @failed depth _ parent _ _ _ _ hmissing hparent hmade =>
    refine ⟨h.ne_empty, fun t hfind => ?_, .inl (h.up_notMem hmissing)⟩
    cases depth with
    | zero =>
      cases hmade
      exact h.not_found t hfind
    | succ depth =>
      obtain ⟨fault', hagain⟩ := hmade.again
      obtain ⟨fault'', hlocate⟩ := locate_of_above hparent hagain
      rw [find_eq, hlocate] at hfind
      cases hfind

end Lacks

/-! ## All folders of a path -/

/-- The machine at another time. -/
def setClock (d : Machine) (t : Time.Instant) : Machine := { d with clock := t }

lemma makeFolder_setClock {d : Machine} {path : String} {result : Except Fault Machine}
    (t : Time.Instant) (h : d.makeFolder path = result) :
    (d.setClock t).makeFolder path = result.map (·.setClock t) := by
  have hlocate : (d.setClock t).locate path = d.locate path := rfl
  rw [← h, makeFolder, makeFolder, hlocate]
  cases d.locate path with
  | error fault => rfl
  | ok spot => rcases spot with way | ⟨way, slash, - | u⟩ <;> rfl

/-- Folders are made at any time in the same way. -/
lemma Made.setClock {depth : Nat} {path : String} {d d' : Machine} {result : Except Fault Unit}
    (h : Made depth path d result d') (t : Time.Instant) :
    Made depth path (d.setClock t) result (d'.setClock t) := by
  induction h with
  | tooDeep => exact .tooDeep
  | nothing => exact .nothing
  | new hne h => exact .new hne (makeFolder_setClock t h)
  | there hne h hfault hfolder => exact .there hne (makeFolder_setClock t h) hfault hfolder
  | blocked hne h hfault hfolder =>
    exact .blocked hne (makeFolder_setClock t h) hfault hfolder
  | rootless hne h hparent => exact .rootless hne (makeFolder_setClock t h) hparent
  | failed hne h hparent _ ih => exact .failed hne (makeFolder_setClock t h) hparent ih
  | inside hne h hparent _ h' ih =>
    exact .inside hne (makeFolder_setClock t h) hparent ih (makeFolder_setClock t h')
  | insideThere hne h hparent _ h' hfolder ih =>
    exact .insideThere hne (makeFolder_setClock t h) hparent ih
      (makeFolder_setClock t h') hfolder
  | insideBlocked hne h hparent _ h' hfolder ih =>
    exact .insideBlocked hne (makeFolder_setClock t h) hparent ih
      (makeFolder_setClock t h') hfolder

/-- Whether the folder of a path can be made, with those around it. -/
def canMake (d : Machine) (path : String) : Bool :=
  ((makeFolders path : StateM Machine (Except Fault Unit)).run d).1.isOk

section

variable {d : Machine} {path : String}

lemma canMake_setClock (t : Time.Instant) : (d.setClock t).canMake path = d.canMake path := by
  rw [canMake, makeFolders, ((made_run _ path d).setClock t).run_eq]
  rfl

lemma exists_made (d : Machine) (path : String) :
    ∃ result d', (makeFolders path : StateM Machine (Except Fault Unit)).run d = (result, d') ∧
      Made (path.length + 1) path d result d' ∧ d.canMake path = result.isOk :=
  ⟨_, _, rfl, made_run _ path d, rfl⟩

/-- A folder that does not exist and can be made is made, and is empty. -/
theorem run_makeFolders_of_canMake (h : Lacks d path) (hcan : d.canMake path = true) :
    ∃ d' way, (makeFolders path : StateM Machine (Except Fault Unit)).run d = (.ok (), d') ∧
      Extends d d' ∧ Opens d' path way [] := by
  obtain ⟨result, d', hrun, hmade, hresult⟩ := exists_made d path
  rw [hcan] at hresult
  cases result with
  | error fault => cases hresult
  | ok =>
    obtain ⟨way, hopens⟩ := hmade.opens h
    exact ⟨d', way, hrun, hmade.extends, hopens⟩

/-- One that cannot be made still does not exist, and still cannot be made. -/
theorem run_makeFolders_of_not_canMake (h : Lacks d path) (hcan : d.canMake path = false) :
    ∃ fault d', (makeFolders path : StateM Machine (Except Fault Unit)).run d =
        (.error fault, d') ∧
      Extends d d' ∧ Lacks d' path ∧ d'.canMake path = false := by
  obtain ⟨result, d', hrun, hmade, hresult⟩ := exists_made d path
  rw [hcan] at hresult
  cases result with
  | ok => cases hresult
  | error fault =>
    obtain ⟨fault', hagain⟩ := hmade.again
    refine ⟨fault, d', hrun, hmade.extends, hmade.lacks h, ?_⟩
    rw [canMake, makeFolders, hagain.run_eq]
    rfl

/-- An open folder is left as it is. -/
theorem run_makeFolders_of_opens {way : List String} {entries : List (String × Tree)}
    (hne : path ≠ "") (h : Opens d path way entries) :
    (makeFolders path : StateM Machine (Except Fault Unit)).run d = (.ok (), d) := by
  have hfind := (find_eq_folder_iff hne).2 ⟨way, h.folderAt_eq, h.get?_eq⟩
  exact (Made.of_isFolder hne (isFolder_iff.2 ⟨entries, hfind⟩) path.length).run_eq

end

end Machine

end Pipework.Disk
