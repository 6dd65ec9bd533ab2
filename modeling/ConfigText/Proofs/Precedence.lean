import ConfigText.CommandLine
import ConfigText.Proofs.Arguments
import ConfigText.Proofs.Sources
import Mathlib

/-!
Which source of a command has the word.

Properties given one by one stand before the env files and these before the environment. A file
that is given again is read again and moves behind the files read since, so among the files it is
not the one given first that wins but the one whose last mention comes first.
-/

namespace ConfigText.CommandLine

/-- What the property that is given last for a name says; else what the first file says that has a
value for it; else what the environment says, if it is asked. -/
def foremost (given : List (Text × Text)) (contents : List EnvFile.Content)
    (env : Option Environment) (name : Text) : Option Text :=
  ((given.reverse.lookup name).or (contents.findSome? (·.get? name))).or
    (env.bind fun env => env.find? name)

/-! ### The chain of a command -/

section Chain

variable {files : Files} {content : Path → EnvFile.Content} {given : List (Text × Text)}
  {paths : List Text} (env : Environment) (name : Text)

lemma assignmentsName_ne : assignmentsName ≠ [] := by decide

/-- The chain of the properties given one by one. -/
def givenChain (given : List (Text × Text)) : Chain :=
  if given.isEmpty then .empty
  else Chain.empty.addLast
    ⟨assignmentsName, .table (Table.ofList (given.map (keyed .text))), assignmentsName_ne⟩

/-- The source over a file. -/
def fileSource (content : Path → EnvFile.Content) (path : Path) : Source :=
  .ofEnvFile path (content path) none

/-- The source over the environment. -/
def environmentSource : Source :=
  ⟨Source.environmentName, .process, Source.environmentName_ne⟩

lemma names_givenChain (h : name ∈ (givenChain given).names) : name = assignmentsName := by
  unfold givenChain at h
  split at h
  · cases h
  · exact List.mem_singleton.1 h

lemma property?_givenChain : (givenChain given).property? env name = given.reverse.lookup name := by
  unfold givenChain
  split
  · next h =>
    rw [List.isEmpty_iff.1 h]
    rfl
  · rw [Chain.property?_addLast _ List.not_mem_nil, Source.get?_table, ofList_map_keyed,
      Properties.shown?_keyed]
    change Option.or none ((Table.find? _ name).bind some) = _
    rw [Option.none_or, Option.bind_fun_some, Table.find?_ofList]

lemma addEnvFiles_eq (hload : ∀ path ∈ paths,
      EnvFile.load files (Path.ofText path) = .ok (content (Path.ofText path)))
    (chain : Chain) (log : List Log.Record) :
    (addEnvFiles files chain log (paths.map some)).2
      = .ok ((paths.map Path.ofText).foldl
          (fun chain path => chain.addLast (fileSource content path)) chain) := by
  induction paths generalizing chain log with
  | nil => rfl
  | cons path more ih =>
    rw [List.forall_mem_cons] at hload
    simp only [List.map_cons, addEnvFiles, hload.1, List.foldl_cons]
    exact ih hload.2 _ _

lemma chain_eq {command : ResolveCommand} (hgiven : command.assignments = given.map some) :
    (command.chain files).2
      = (addEnvFiles files (givenChain given) [] command.envFiles).2.map fun chain =>
          if command.withEnvironment then chain.addLast environmentSource else chain := by
  have hnone : command.assignments.findIdx? Option.isNone = none := by simp [hgiven]
  have hpairs : command.assignments.filterMap id = given := by simp [hgiven]
  unfold ResolveCommand.chain
  rw [hnone, hpairs]
  rfl

/-- Files are asked after the properties given one by one, each where it is mentioned last. -/
lemma property?_files :
    ((paths.map Path.ofText).foldl (fun chain path => chain.addLast (fileSource content path))
        (givenChain given)).property? env name
      = (given.reverse.lookup name).or
          (((paths.map Path.ofText).dedup.map content).findSome? (·.get? name)) := by
  have hinj : ∀ path ∈ paths.map Path.ofText, ∀ other ∈ paths.map Path.ofText,
      (fileSource content path).name = (fileSource content other).name → path = other := by
    intro path hpath other hother h
    obtain ⟨_, -, rfl⟩ := List.mem_map.1 hpath
    obtain ⟨_, -, rfl⟩ := List.mem_map.1 hother
    exact Source.envFileName_inj (Path.isPlain_ofText _) (Path.isPlain_ofText _) h
  have hnew : ∀ path ∈ paths.map Path.ofText,
      (fileSource content path).name ∉ (givenChain given).names := fun path _ h =>
    absurd (names_givenChain _ h) (Source.envFileName_ne_of_head (by decide))
  rw [Chain.property?_foldl_addLast _ hinj hnew, property?_givenChain, List.findSome?_map]
  exact congrArg (fun f => Option.or _ (List.findSome? f _)) (funext fun path =>
    Source.get?_ofEnvFile env path (content path) name)

/-- A command whose files all load has a chain. Among the files the one is asked first whose last
mention comes first. -/
lemma exists_chain {command : ResolveCommand} (hgiven : command.assignments = given.map some)
    (hpaths : command.envFiles = paths.map some)
    (hload : ∀ path ∈ paths,
      EnvFile.load files (Path.ofText path) = .ok (content (Path.ofText path))) :
    ∃ chain, (command.chain files).2 = .ok chain ∧ ∀ env name, chain.property? env name
      = foremost given ((paths.map Path.ofText).dedup.map content)
          (if command.withEnvironment then some env else none) name := by
  rw [chain_eq hgiven, hpaths, addEnvFiles_eq hload]
  refine ⟨_, rfl, fun env name => ?_⟩
  rw [foremost, ← property?_files env name]
  split
  · rw [Chain.property?_addLast]
    · exact congrArg _ (Source.get?_process env _ _ name)
    · intro h
      obtain h | ⟨path, -, h⟩ := Chain.names_foldl_addLast _ h
      · exact absurd (names_givenChain _ h) (by decide)
      · exact Source.envFileName_ne_of_head (by decide) h
  · exact (Option.or_none ..).symm

end Chain

/-! ### Files that are given again -/

lemma findSome?_dedup {α β : Type} [DecidableEq α] {f : α → Option β} {items : List α}
    (h : ∀ item, items.find? (fun item => (f item).isSome) = some item → items.count item = 1) :
    items.dedup.findSome? f = items.findSome? f := by
  induction items with
  | nil => rfl
  | cons item more ih =>
    cases hitem : f item with
    | some found =>
      -- the first item with a value does not come again, so it keeps its place
      have hcount := h item (by simp [hitem])
      have hnot : item ∉ more := by
        rw [List.count_cons_self] at hcount
        exact List.count_eq_zero.1 (by omega)
      rw [List.dedup_cons_of_notMem hnot, List.findSome?_cons, List.findSome?_cons, hitem]
    | none =>
      have hmore : more.dedup.findSome? f = more.findSome? f := by
        refine ih fun other hother => ?_
        have hne : other ≠ item := by
          rintro rfl
          have := List.find?_some hother
          simp [hitem] at this
        have hcount := h other (by simpa [hitem] using hother)
        rwa [List.count_cons_of_ne hne.symm] at hcount
      rw [List.findSome?_cons, hitem, ← hmore]
      by_cases hmem : item ∈ more
      · rw [List.dedup_cons_of_mem hmem]
      · rw [List.dedup_cons_of_notMem hmem, List.findSome?_cons, hitem]

/-- **Precedence on the command line.** Where all files can be read, a name has the value of the
last property given for it, else that of the first file that has one, else that of the environment,
if it is asked for. The files count in the order in which they are mentioned last; that is the order
in which they are given, except for names whose first file is given again. -/
theorem property?_eq_foremost (command : ResolveCommand) (files : Files)
    (content : Path → EnvFile.Content) (given : List (Text × Text)) (paths : List Text)
    (hgiven : command.assignments = given.map some) (hpaths : command.envFiles = paths.map some)
    (hload : ∀ path ∈ paths,
      EnvFile.load files (Path.ofText path) = .ok (content (Path.ofText path))) :
    ∃ chain, (command.chain files).2 = .ok chain ∧ ∀ (env : Environment) (name : Text),
      let read := paths.map Path.ofText
      let behind := if command.withEnvironment then some env else none
      chain.property? env name = foremost given (read.dedup.map content) behind name ∧
      ((∀ path, read.find? (fun path => ((content path).get? name).isSome) = some path →
          read.count path = 1) →
        chain.property? env name = foremost given (read.map content) behind name) := by
  obtain ⟨chain, hchain, hproperty⟩ := exists_chain hgiven hpaths hload
  refine ⟨chain, hchain, fun env name => ⟨hproperty env name, fun honce => ?_⟩⟩
  have hsame := findSome?_dedup (f := fun path => (content path).get? name) honce
  rw [hproperty, foremost, foremost, List.findSome?_map, List.findSome?_map]
  simp only [Function.comp_def, hsame]

/-- Two env files with one variable. -/
def twoFiles : Files :=
  (FileTree.ofList [("a.env".toList, "K=1\n".toList), ("b.env".toList, "K=2\n".toList)]).toFiles

/-- What is read from them. -/
def twoContents (path : Path) : EnvFile.Content :=
  if path = Path.ofText "a.env".toList then EnvFile.read "K=1\n".toList
  else EnvFile.read "K=2\n".toList

/-- The first file is given again behind the second. -/
def givenAgain : List Text := ["a.env".toList, "b.env".toList, "a.env".toList]

/-- A command that names them so. -/
def repeating (given : List (Text × Text)) : ResolveCommand :=
  { ResolveCommand.ofSettings .default ['$', '{', 'K', '}'] given true with
    envFiles := givenAgain.map some }

lemma twoFiles_load : ∀ path ∈ givenAgain,
    EnvFile.load twoFiles (Path.ofText path) = .ok (twoContents (Path.ofText path)) := by
  intro path h
  simp only [givenAgain, List.mem_cons, List.not_mem_nil, or_false] at h
  obtain rfl | rfl | rfl := h <;> rfl

/-- A property given as such comes before both files. -/
theorem repeating_property? :
    (∀ path ∈ givenAgain,
      EnvFile.load twoFiles (Path.ofText path) = .ok (twoContents (Path.ofText path))) ∧
    ∃ chain, ((repeating [(['K'], ['0'])]).chain twoFiles).2 = .ok chain ∧
      chain.property? .empty ['K'] = some ['0'] := by
  obtain ⟨chain, hchain, hproperty⟩ := property?_eq_foremost (repeating [(['K'], ['0'])]) twoFiles
    twoContents [(['K'], ['0'])] givenAgain rfl rfl twoFiles_load
  exact ⟨twoFiles_load, chain, hchain, (hproperty .empty ['K']).1.trans (by decide +kernel)⟩

/-- Of two files that both have a value the second one wins where the first is given again. -/
theorem repeated_file_yields :
    (∀ path ∈ givenAgain,
      EnvFile.load twoFiles (Path.ofText path) = .ok (twoContents (Path.ofText path))) ∧
    ((repeating []).chain twoFiles).2.toOption.map (·.property? .empty ['K']) = some (some ['2']) ∧
    foremost [] (givenAgain.map (twoContents ∘ Path.ofText)) (some .empty) ['K'] = some ['1'] :=
  ⟨twoFiles_load, by decide +kernel, by decide +kernel⟩

end ConfigText.CommandLine
