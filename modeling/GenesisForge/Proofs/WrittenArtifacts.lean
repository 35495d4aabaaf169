import GenesisForge.CommandLine.Run
import GenesisForge.Proofs.AttestationIsolation
import GenesisForge.Proofs.BlockTexts
import GenesisForge.Proofs.CommandLines
import GenesisForge.Proofs.FirstOffset
import GenesisForge.Proofs.StateTexts
import Mathlib.Data.List.TakeWhile

/-!
# What a run writes

A run of the command line either writes what the library makes of the files that its
options name, or ends in an error and leaves every file as it was.  All reading and
building comes before the first file is written, and both artifacts are made of one
state.
-/

namespace GenesisForge.CommandLine

open Ssz Bls

/-! ## What the files hold -/

/-- The text of the file of a path denotes something. -/
def Reads {α : Type} (read : String → Option String) (decode : String → Option α)
    (path : String) (a : α) : Prop :=
  ∃ text, read path = some text ∧ decode text = some a

/-- The validators and the vendor that a text holds. -/
def ValidatorsFile.ofText? (text : String) : Option ValidatorsFile :=
  (Yaml.Place.ofText? text).bind read?

/-- What the files of a run hold, without those that are not given. -/
structure Contents where
  config : Config
  block : ExecutionBlock
  shadowBlock : Option ExecutionBlock
  validators : Option ValidatorsFile

namespace Contents

/-- The configuration, where the vendor that the file of validators names takes the
place of the configured one. -/
def libraryConfig (contents : Contents) : Config :=
  match contents.validators.bind (·.vendor) with
  | some vendor => contents.config.set ProposerTee.nameKey (.text vendor)
  | none => contents.config

/-- The calls that prepare the builder of a state. -/
def calls (contents : Contents) : List BuilderCall :=
  (contents.shadowBlock.map .setShadowBlock).toList ++
    [.addValidators (contents.validators.elim [] (·.validators))]

end Contents

/-- The files that are given can be read, and hold the contents. -/
structure Options.FilesHold (options : Options) (read : String → Option String)
    (contents : Contents) : Prop where
  config : Reads read Config.ofText? options.config contents.config
  block : Reads read ExecutionBlock.ofText? options.block contents.block
  shadowBlock :
    Option.Rel (Reads read ExecutionBlock.ofText?) options.shadowBlock contents.shadowBlock
  validators :
    Option.Rel (Reads read ValidatorsFile.ofText?) options.validators contents.validators

section

variable {read : String → Option String} {path : String}

theorem loadConfig_eq_ok_iff {config : Config} :
    loadConfig read path = .ok config ↔ Reads read Config.ofText? path config := by
  unfold loadConfig Config.ofText Reads
  cases hread : read path with
  | none => simp
  | some text => cases hconfig : Config.ofText? text <;> simp [hconfig]

theorem readBlock_eq_ok_iff {block : ExecutionBlock} :
    readBlock read path = .ok block ↔ Reads read ExecutionBlock.ofText? path block := by
  unfold readBlock Reads
  cases hread : read path with
  | none => simp
  | some text => cases hblock : ExecutionBlock.ofText? text <;> simp [hblock]

theorem readValidators_some_eq_ok_iff {file : ValidatorsFile} :
    readValidators read (some path) = .ok file ↔ Reads read ValidatorsFile.ofText? path file := by
  simp only [readValidators, Reads, ValidatorsFile.ofText?]
  cases hread : read path with
  | none => simp
  | some text =>
      cases hfile : (Yaml.Place.ofText? text).bind ValidatorsFile.read? <;> simp [hfile]

theorem readValidators_eq_ok_iff {path : Option String} {file : ValidatorsFile} :
    readValidators read path = .ok file ↔
      ∃ validators, Option.Rel (Reads read ValidatorsFile.ofText?) path validators ∧
        validators.getD .empty = file := by
  cases path with
  | none =>
      constructor
      · rintro ⟨⟩
        exact ⟨none, .none, rfl⟩
      · rintro ⟨_, ⟨⟩, rfl⟩
        rfl
  | some path =>
      rw [readValidators_some_eq_ok_iff]
      constructor
      · intro hreads
        exact ⟨some file, .some hreads, rfl⟩
      · rintro ⟨_, ⟨hreads⟩, rfl⟩
        exact hreads

theorem addShadowBlock_eq_ok_iff {options : Options} {inputs anchored : GenesisInputs} :
    addShadowBlock read options inputs = .ok anchored ↔
      ∃ shadowBlock,
        Option.Rel (Reads read ExecutionBlock.ofText?) options.shadowBlock shadowBlock ∧
        inputs.callAll (shadowBlock.map .setShadowBlock).toList = anchored := by
  unfold addShadowBlock
  cases options.shadowBlock with
  | none =>
      constructor
      · rintro ⟨⟩
        exact ⟨none, .none, rfl⟩
      · rintro ⟨_, ⟨⟩, rfl⟩
        rfl
  | some path =>
      simp only [map_eq_ok_iff, readBlock_eq_ok_iff]
      constructor
      · rintro ⟨block, hreads, rfl⟩
        exact ⟨some block, .some hreads, rfl⟩
      · rintro ⟨_, ⟨hreads⟩, rfl⟩
        exact ⟨_, hreads, rfl⟩

end

/-- What is to be built of the contents, except for the shadow block. -/
def Contents.order (contents : Contents) : Order :=
  ⟨contents.libraryConfig, contents.block, contents.validators.elim [] (·.validators)⟩

section

variable {read : String → Option String} {options : Options} {contents : Contents}

theorem Options.FilesHold.readOrder_eq (hfiles : options.FilesHold read contents) :
    readOrder read options = .ok contents.order := by
  obtain ⟨config, block, shadowBlock, validators⟩ := contents
  rw [readOrder, loadConfig_eq_ok_iff.mpr hfiles.config, readBlock_eq_ok_iff.mpr hfiles.block,
    readValidators_eq_ok_iff.mpr ⟨validators, hfiles.validators, rfl⟩]
  cases validators <;> rfl

/-- Where the files hold the contents, what is left of a build is the work of the
library. -/
theorem Options.FilesHold.buildOrder_eq
    {H : Type} [HeaderBuild H] (hfiles : options.FilesHold read contents) :
    buildOrder H read options contents.order =
      (openGenesis contents.libraryConfig contents.block).mapError .unsupported >>=
        fun (fork, inputs) =>
          (buildState (H := H) fork (inputs.callAll contents.calls)).mapError .unbuildable >>=
            fun state =>
              .ok (options.outputs.map fun (path, form) => ⟨path, artifact state form⟩) := by
  refine bind_congr ?_
  rintro ⟨fork, inputs⟩
  have hanchored : addShadowBlock read options inputs = .ok _ :=
    addShadowBlock_eq_ok_iff.mpr ⟨_, hfiles.shadowBlock, rfl⟩
  dsimp only
  rw [hanchored, Contents.calls, GenesisInputs.callAll, GenesisInputs.callAll, List.foldl_append]
  rfl

theorem exists_filesHold_of_buildOrder
    {H : Type} [HeaderBuild H] {files : List Artifact}
    (hbuilt : (readOrder read options >>= buildOrder H read options) = .ok files) :
    ∃ contents, options.FilesHold read contents := by
  obtain ⟨order, hread, hbuilt⟩ := bind_eq_ok_iff.mp hbuilt
  obtain ⟨config, hconfig, hread⟩ := bind_eq_ok_iff.mp hread
  obtain ⟨block, hblock, hread⟩ := bind_eq_ok_iff.mp hread
  obtain ⟨file, hfile, -⟩ := bind_eq_ok_iff.mp hread
  obtain ⟨⟨fork, opened⟩, -, hbuilt⟩ := bind_eq_ok_iff.mp hbuilt
  obtain ⟨inputs, hinputs, -⟩ := bind_eq_ok_iff.mp hbuilt
  obtain ⟨shadowBlock, hshadowBlock, -⟩ := addShadowBlock_eq_ok_iff.mp hinputs
  obtain ⟨validators, hvalidators, -⟩ := readValidators_eq_ok_iff.mp hfile
  exact ⟨⟨config, block, shadowBlock, validators⟩, loadConfig_eq_ok_iff.mp hconfig,
    readBlock_eq_ok_iff.mp hblock, hshadowBlock, hvalidators⟩

end

/-! ## Files after a run -/

theorem Failure.exitCode_ne_zero (failure : Failure) : failure.exitCode ≠ 0 := by
  unfold Failure.exitCode
  split <;> decide

/-- The files once one more is written. -/
def addFile (files : String → Option ByteArray) (file : Artifact) : String → Option ByteArray :=
  Function.update files file.path (some file.bytes)

namespace Outcome

/-- The files after a run, given those before it. -/
def filesAfter (outcome : Outcome) (before : String → Option ByteArray) :
    String → Option ByteArray :=
  outcome.written.foldl addFile before

/-- The run fails and leaves every file as it was. -/
structure StopsWith (outcome : Outcome) (failure : Failure) : Prop where
  failure : outcome.failure = some failure
  exitCode : outcome.exitCode ≠ 0
  written : outcome.written = []
  unchanged : ∀ before, outcome.filesAfter before = before

theorem stopsWith_failed (failure : Failure) : (failed [] failure).StopsWith failure where
  failure := rfl
  exitCode := failure.exitCode_ne_zero
  written := rfl
  unchanged := fun _ => rfl

end Outcome

namespace Options

/-- The artifacts that are asked for, the binary one first. -/
def requested (options : Options) (ssz json : ByteArray) : List Artifact :=
  (options.sszOutput.map (⟨·, ssz⟩)).toList ++ (options.jsonOutput.map (⟨·, json⟩)).toList

/-- The files hold the artifacts that are asked for, and the other files are as they
were.  Of two artifacts that are asked for at one path the text is written last. -/
structure FilesWritten (options : Options) (ssz json : ByteArray)
    (before after : String → Option ByteArray) : Prop where
  json : ∀ path, options.jsonOutput = some path → after path = some json
  ssz : ∀ path, options.sszOutput = some path → options.jsonOutput ≠ some path →
    after path = some ssz
  others : ∀ path, options.sszOutput ≠ some path → options.jsonOutput ≠ some path →
    after path = before path

theorem foldl_addFile_output
    (output : Option String) (bytes : ByteArray) (files : String → Option ByteArray)
    (path : String) :
    (output.map (Artifact.mk · bytes)).toList.foldl addFile files path =
      if output = some path then some bytes else files path := by
  cases output with
  | none => rfl
  | some other =>
      change Function.update files other (some bytes) path = _
      by_cases hpath : path = other
      · subst hpath
        simp
      · simp [hpath, Ne.symm hpath]

theorem filesWritten_requested
    (options : Options) (ssz json : ByteArray) (before : String → Option ByteArray) :
    options.FilesWritten ssz json before
      ((Outcome.succeeded (options.requested ssz json)).filesAfter before) := by
  have hafter : ∀ path, (Outcome.succeeded (options.requested ssz json)).filesAfter before path =
      if options.jsonOutput = some path then some json
      else if options.sszOutput = some path then some ssz
      else before path := by
    intro path
    rw [Outcome.filesAfter, Outcome.succeeded, requested, List.foldl_append,
      foldl_addFile_output, foldl_addFile_output]
  constructor
  · intro path hjson
    rw [hafter, if_pos hjson]
  · intro path hssz hjson
    rw [hafter, if_neg hjson, if_pos hssz]
  · intro path hssz hjson
    rw [hafter, if_neg hjson, if_neg hssz]

theorem canWrite_requested
    {options : Options} {canWrite : String → Bool} {ssz json : ByteArray}
    (hcan : ∀ path, options.sszOutput = some path ∨ options.jsonOutput = some path →
      canWrite path = true) :
    ∀ file ∈ options.requested ssz json, canWrite file.path = true := by
  intro file hfile
  rcases List.mem_append.mp hfile with hmem | hmem
  · obtain ⟨path, hpath, rfl⟩ := by simpa using hmem
    exact hcan path (.inl hpath)
  · obtain ⟨path, hpath, rfl⟩ := by simpa using hmem
    exact hcan path (.inr hpath)

theorem outputs_map_artifact
    {H : Type} [Serializable H] (options : Options) (state : VersionedState H) :
    options.outputs.map (fun (path, form) => Artifact.mk path (artifact state form)) =
      options.requested (artifact state .ssz) (artifact state .json) := by
  unfold outputs requested
  cases options.sszOutput <;> cases options.jsonOutput <;> rfl

end Options

theorem write_of_canWrite
    {canWrite : String → Bool} {files : List Artifact}
    (hcan : ∀ file ∈ files, canWrite file.path = true) :
    write canWrite files = .succeeded files := by
  have hnone : (files.find? fun file => !canWrite file.path) = none := by
    simpa using hcan
  rw [write, hnone, List.takeWhile_eq_self_iff.mpr hcan]

/-! ## Runs -/

/-- What a run with the options leaves behind is what the library makes of the files
that the options name, with the given kind of headers. -/
structure FollowsLibrary (H : Type) [HeaderBuild H] (around : Surroundings) (options : Options)
    (outcome : Outcome) : Prop where
  /-- A file that is given cannot be read or decoded. -/
  unread : (∀ contents, ¬ options.FilesHold around.read contents) →
    ∃ failure, outcome.StopsWith failure
  unopened : ∀ contents e, options.FilesHold around.read contents →
    openGenesis contents.libraryConfig contents.block = .error e →
    outcome.StopsWith (.unsupported e)
  unbuilt : ∀ contents fork inputs e, options.FilesHold around.read contents →
    openGenesis contents.libraryConfig contents.block = .ok (fork, inputs) →
    buildState (H := H) fork (inputs.callAll contents.calls) = .error e →
    outcome.StopsWith (.unbuildable e)
  /-- Everything is written, if it can be. -/
  written : ∀ contents fork inputs state, options.FilesHold around.read contents →
    openGenesis contents.libraryConfig contents.block = .ok (fork, inputs) →
    buildState (H := H) fork (inputs.callAll contents.calls) = .ok state →
    (∀ path, options.sszOutput = some path ∨ options.jsonOutput = some path →
      around.canWrite path = true) →
    ∃ ssz json,
      serialize fork state .ssz = .ok ssz ∧
      serialize fork state .json = .ok json ∧
      outcome = .succeeded (options.requested ssz json) ∧
      ∀ before, options.FilesWritten ssz json before (outcome.filesAfter before)

section

variable {H : Type} [HeaderBuild H] {around : Surroundings} {options : Options}

theorem runBuild_eq_failed {failure : Failure}
    (hartifacts : artifacts around.read options = .error failure) :
    runBuild around options = .failed [] failure := by
  rw [runBuild, hartifacts]

theorem followsLibrary_runBuild
    (hartifacts : artifacts around.read options =
      readOrder around.read options >>= buildOrder H around.read options) :
    FollowsLibrary H around options (runBuild around options) := by
  have hbuild : ∀ contents, options.FilesHold around.read contents →
      artifacts around.read options = buildOrder H around.read options contents.order := by
    intro contents hfiles
    rw [hartifacts, hfiles.readOrder_eq]
    rfl
  constructor
  case unread =>
    intro hnone
    cases hmade : artifacts around.read options with
    | ok files =>
        obtain ⟨contents, hfiles⟩ := exists_filesHold_of_buildOrder (hartifacts ▸ hmade)
        exact absurd hfiles (hnone contents)
    | error failure =>
        rw [runBuild_eq_failed hmade]
        exact ⟨failure, Outcome.stopsWith_failed failure⟩
  case unopened =>
    intro contents e hfiles hopen
    have hfailed : artifacts around.read options = .error (.unsupported e) := by
      rw [hbuild contents hfiles, hfiles.buildOrder_eq, hopen]
      rfl
    rw [runBuild_eq_failed hfailed]
    exact Outcome.stopsWith_failed _
  case unbuilt =>
    intro contents fork inputs e hfiles hopen hstate
    have hfailed : artifacts around.read options = .error (.unbuildable e) := by
      rw [hbuild contents hfiles, hfiles.buildOrder_eq, hopen]
      change (buildState (H := H) fork _).mapError _ >>= _ = _
      rw [hstate]
      rfl
    rw [runBuild_eq_failed hfailed]
    exact Outcome.stopsWith_failed _
  case written =>
    intro contents fork inputs state hfiles hopen hstate hcan
    have hmade : artifacts around.read options =
        .ok (options.requested (artifact state .ssz) (artifact state .json)) := by
      rw [hbuild contents hfiles, hfiles.buildOrder_eq, hopen]
      change (buildState (H := H) fork _).mapError _ >>= _ = _
      rw [hstate, ← options.outputs_map_artifact state]
      rfl
    have hrun : runBuild around options =
        .succeeded (options.requested (artifact state .ssz) (artifact state .json)) := by
      rw [runBuild, hmade]
      exact write_of_canWrite (options.canWrite_requested hcan)
    have hfork := fork_of_buildState hstate
    refine ⟨_, _, VersionedState.serialize_eq_ok_iff.mpr ⟨hfork, rfl⟩,
      VersionedState.serialize_eq_ok_iff.mpr ⟨hfork, rfl⟩, hrun, fun before => ?_⟩
    rw [hrun]
    exact options.filesWritten_requested _ _ before

/-- A run that is asked to build writes the artifacts of the one state that the library
makes of the files, or it fails and writes nothing.  It can be asked for any combination of
options without an empty path, and for no other. -/
theorem run_writes_library_artifacts (around : Surroundings) (options : Options) :
    (∀ arguments, request? arguments = some (.build options) →
      if options.standardHeader then
        FollowsLibrary BlockHeader around options (run around arguments)
      else
        FollowsLibrary TeeBlockHeader around options (run around arguments)) ∧
    ((∃ arguments, request? arguments = some (.build options)) ↔
      ∀ option, options.path? option ≠ some "") := by
  refine ⟨?_, exists_request?_iff⟩
  intro arguments hrequest
  have hrun : run around arguments = runBuild around options := by
    rw [run, hrequest]
  rw [hrun]
  split
  · next hstandard =>
      refine followsLibrary_runBuild (bind_congr fun order => ?_)
      rw [if_pos hstandard]
  · next hstandard =>
      refine followsLibrary_runBuild (bind_congr fun order => ?_)
      rw [if_neg hstandard]

end

/-! ## A run that writes -/

deriving instance DecidableEq for Config
deriving instance DecidableEq for GenesisValidator
deriving instance DecidableEq for ValidatorsFile

/-- The parameters of the main network with Deneb from the start. -/
def denebSpec : ChainSpec where
  value := fun p => if p = .denebForkEpoch then 0 else p.default
  version := ForkName.defaultVersion
  votingSlots_lt := by decide
  roundCount_lt := by decide
  treeDepth_lt := by decide

def denebText : String :=
  "\x7b'DENEB_FORK_EPOCH': '0', 'TEE_VENDOR_FROM_MNEMONICS': 'sev'\x7d"

/-- One validator, and another vendor than that of the configuration. -/
def soloText : String :=
  "\x7b'tee_vendor': 'tdx', 'validators': [\x7b'pubkey': '97f1d3a73197d7942695638c4fa9ac0fc36" ++
  "88c4f9774b905a14e3a3f171bac586c55e83ff97a1aeffb3af00adb22c6bb', 'withdrawal_credentials': '" ++
  "0000000000000000000000000000000000000000000000000000000000000000'\x7d]\x7d"

def quietText : String :=
  (BlockText.blockJson quietBlock).render

def soloContents : Contents where
  config := (Config.empty.set ProposerTee.nameKey (.text "sev")).set
    Parameter.denebForkEpoch.key (.text "0")
  block := quietBlock
  shadowBlock := some quietBlock
  validators := some ⟨some "tdx", [soloValidator]⟩

theorem toUTF8_ofList (chars : List Char) :
    (String.ofList chars).toUTF8 = ⟨⟨chars.flatMap String.utf8EncodeChar⟩⟩ :=
  ByteArray.ext List.data_toByteArray

set_option maxRecDepth 20000 in
/-- The characters of the text and its bytes are given before it is read, since taking
literals apart is what costs most. -/
theorem ofText?_soloText :
    ValidatorsFile.ofText? soloText = some ⟨some "tdx", [soloValidator]⟩ := by
  have htext : soloText = String.ofList _ :=
    (congrArg (· ++ _) String.ofList_append.symm).trans String.ofList_append.symm
  unfold ValidatorsFile.ofText? Yaml.Place.ofText? Yaml.Document.ofText? Yaml.tokens?
  rw [htext, String.toList_ofList, toUTF8_ofList]
  decide +kernel

theorem specOf_soloContents : specOf soloContents.libraryConfig = .ok denebSpec := by
  obtain ⟨spec, hspec, hvalue, hversion⟩ :
      ∃ spec, specOf soloContents.libraryConfig = .ok spec ∧
        (∀ p : Parameter, spec.value p = denebSpec.value p) ∧
        ∀ fork : ForkName, spec.version fork = fork.defaultVersion := by
    refine ⟨_, rfl, fun p => ?_, fun fork => ?_⟩
    · cases p <;> rfl
    · cases fork <;> rfl
  obtain rfl : spec = denebSpec := ChainSpec.ext hvalue hversion
  exact hspec

theorem openGenesis_soloContents :
    openGenesis soloContents.libraryConfig quietBlock =
      .ok (.deneb, .new soloContents.libraryConfig denebSpec quietBlock) := by
  rw [openGenesis, specOf_soloContents]
  rfl

theorem exists_buildState_soloContents :
    ∃ state, buildState (H := TeeBlockHeader) .deneb
      ((GenesisInputs.new soloContents.libraryConfig denebSpec quietBlock).callAll
        soloContents.calls) = .ok state := by
  have hspec : denebSpec.DefinesRoots .deneb :=
    { limits := by decide
      transactionBytes := by decide
      depositDepth := by decide }
  have hdelay : delayFailure denebSpec quietBlock = none := by decide
  have hpayload : ∀ failure ∈ payloadFailures denebSpec quietBlock, failure = none := by decide
  have hroom : [soloValidator].length ≤ denebSpec.size .validatorRegistryLimit := by decide
  have hactive : [soloValidator].any (·.isActive denebSpec .deneb) = true := by decide
  have hkeys : ∀ v ∈ [soloValidator], ∃ p, validPoint v.pubkey = .ok p :=
    exists_validPoint_of_generatorKey (by simp [soloValidator])
  have hplaces : denebSpec.size .syncCommitteeSize ≠ 0 := by decide
  have hattestation : attestationFailure soloContents.libraryConfig = none := by decide +kernel
  have hends := GenesisInputs.selection_deneb_ne_neverFull
    ((GenesisInputs.new soloContents.libraryConfig denebSpec quietBlock).callAll
      soloContents.calls)
    (by decide : denebSpec.CapsFit .deneb)
  exact exists_buildState hspec hends hdelay hpayload hroom hactive hkeys hplaces hattestation

def soloOptions : Options where
  config := "config.yaml"
  block := "block.json"
  shadowBlock := some "shadow.json"
  validators := some "validators.yaml"
  sszOutput := some "genesis.ssz"
  jsonOutput := some "genesis.json"
  standardHeader := false

def soloSurroundings : Surroundings where
  read := fun path => [("config.yaml", denebText), ("block.json", quietText),
    ("shadow.json", quietText), ("validators.yaml", soloText)].lookup path
  canWrite := fun _ => true

theorem filesHold_soloContents : soloOptions.FilesHold soloSurroundings.read soloContents where
  config := ⟨denebText, rfl, by decide +kernel⟩
  block := ⟨quietText, rfl, BlockText.ofText?_render_blockJson quietBlock⟩
  shadowBlock := .some ⟨quietText, rfl, BlockText.ofText?_render_blockJson quietBlock⟩
  validators := .some ⟨soloText, rfl, ofText?_soloText⟩

theorem run_writes_both_artifacts :
    (∃ arguments, request? arguments = some (.build soloOptions)) ∧
      request? soloOptions.arguments = some (.build soloOptions) ∧
      ∃ state : VersionedState TeeBlockHeader, ∃ ssz json,
        serialize .deneb state .ssz = .ok ssz ∧ serialize .deneb state .json = .ok json ∧
        run soloSurroundings soloOptions.arguments =
          .succeeded [⟨"genesis.ssz", ssz⟩, ⟨"genesis.json", json⟩] := by
  have hpaths : ∀ option, soloOptions.path? option ≠ some "" := by
    intro option
    cases option <;> decide
  obtain ⟨hfollows, hasked⟩ := run_writes_library_artifacts soloSurroundings soloOptions
  have hrequest := request?_arguments hpaths
  have hlibrary : FollowsLibrary TeeBlockHeader soloSurroundings soloOptions _ :=
    hfollows soloOptions.arguments hrequest
  obtain ⟨state, hstate⟩ := exists_buildState_soloContents
  obtain ⟨ssz, json, hssz, hjson, hrun, -⟩ :=
    hlibrary.written soloContents .deneb _ state filesHold_soloContents openGenesis_soloContents
      hstate fun _ _ => rfl
  exact ⟨hasked.mpr hpaths, hrequest, state, ssz, json, hssz, hjson, hrun⟩

end GenesisForge.CommandLine
