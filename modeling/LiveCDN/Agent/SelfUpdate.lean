import LiveCDN.Library.FallibleFiles
import LiveCDN.Library.Utf8Text

/-!
# The update of the agent

`updater/mod.rs`: `check_and_update` asks the controller for a version, downloads another one,
copies the running executable to a backup, writes the download beside it and renames it over the
executable. When the renaming fails it renames the backup over the executable instead, although the
copy may have failed.

So the executable is as it was behind an update that failed exactly when it is not the case that a
backup other than the executable is there behind a failed copy and is put in its place
(`keepsBinary_iff`).

Scope. Which operations fail and what they leave is an input (`Failures`), as are the answers of the
network (`Environment`). Log lines and the mode of a file are left out.
-/

set_option autoImplicit false
set_option relaxedAutoImplicit false

namespace LiveCDN.Agent.SelfUpdate

open Library.FallibleFiles Library.Utf8Text

/-! ### Paths -/

/-- A path to a file. -/
structure Path where
  directory : Text
  fileName : Text
  deriving DecidableEq, Repr

/-- `file_stem`: what stands before the last point, unless there is none or it comes first. -/
def fileStem (fileName : Text) : Text :=
  match fileName.reverse.dropWhile fun c ↦ decide (c ≠ '.') with
  | _ :: c :: stem => (c :: stem).reverse
  | _ => fileName

/-- `with_extension`. -/
def Path.withExtension (path : Path) (extension : Text) : Path :=
  { path with fileName := fileStem path.fileName ++ '.' :: extension }

/-- The path of the backup. -/
def Path.backup (exe : Path) : Path := exe.withExtension "bak".toList

/-- The path that the download is written to. -/
def Path.tmp (exe : Path) : Path := exe.withExtension "new".toList

/-- The download is not written to the backup. -/
theorem Path.backup_ne_tmp (exe : Path) : exe.backup ≠ exe.tmp := by
  intro hequal
  have hname := congrArg Path.fileName hequal
  have hextension := List.append_cancel_left hname
  exact absurd hextension (by decide)

/-! ### The download -/

/-- The contents of a file. -/
abbrev Bytes := List UInt8

/-- `AGENT_VERSION`. -/
def agentVersion : Text := "0.1.0".toList

/-- The fields of `Config` that an update reads. -/
structure Config where
  controllerUrl : Text
  regToken : Text

/-- `controller_api_url`. -/
def Config.controllerApiUrl (config : Config) (path : Text) : Text :=
  trimEndMatches "/".toList config.controllerUrl ++
    if "/".toList.isPrefixOf path then path else '/' :: path

/-- `VersionInfo`. -/
structure VersionInfo where
  version : Text
  downloadUrl : Option Text

/-- A response: its status, what its body decodes to and its bytes, none where this fails. -/
structure Response where
  status : ℕ
  json : Option VersionInfo
  bytes : Option Bytes

/-- What the updater meets: what a request with a URL and a header `Authorization` is answered, none
when it fails, and the path of the executable. -/
structure Environment where
  config : Config
  get : Text → Option Text → Option Response
  currentExe : Option Path

/-- The part of `check_and_update` up to the download: the new binary, none when it returns. -/
def download (env : Environment) : Option Bytes := do
  let versionUrl := env.config.controllerApiUrl "/api/admin/agent_version".toList
  let resp ← env.get versionUrl (some ("Bearer ".toList ++ env.config.regToken))
  let info ← resp.json
  if info.version = agentVersion then none
  else
    let downloadUrl := info.downloadUrl.getD (env.config.controllerApiUrl
      "/downloads/livecdn-agent-x86_64-unknown-linux-musl".toList)
    let resp ← env.get downloadUrl none
    if 200 ≤ resp.status ∧ resp.status < 300 then resp.bytes else none

/-! ### The replacement -/

/-- Which operations fail, and what a failed copy or write leaves. -/
structure Failures where
  copy : Option (Leftover Bytes)
  write : Option (Leftover Bytes)
  setPermissions : Bool
  rename : Bool
  rollback : Bool
  remove : Bool

/-- The part of `check_and_update` behind a renaming that failed: the files behind it. -/
def restoreBackup (fails : Failures) (currentExe : Path) (files : Files Path Bytes) :
    Files Path Bytes :=
  let files := if (files currentExe.backup).isSome then
    (rename currentExe.backup currentExe fails.rollback files).2
    else files
  (remove currentExe.tmp fails.remove files).2

/-- The part of `check_and_update` behind the download. -/
def replaceBinary (fails : Failures) (currentExe : Path) (newBinary : Bytes)
    (files : Files Path Bytes) : Bool × Files Path Bytes :=
  let files := (copy currentExe currentExe currentExe.backup fails.copy files).2
  let written := write currentExe currentExe.tmp newBinary fails.write files
  if written.1 = false then (false, written.2)
  else if fails.setPermissions = true then
    (false, (remove currentExe.tmp fails.remove written.2).2)
  else
    let renamed := rename currentExe.tmp currentExe fails.rename written.2
    if renamed.1 = true then (true, renamed.2)
    else (false, restoreBackup fails currentExe renamed.2)

/-- `check_and_update`. -/
def checkAndUpdate (env : Environment) (fails : Failures) (files : Files Path Bytes) :
    Bool × Files Path Bytes :=
  match download env with
  | none => (false, files)
  | some newBinary =>
    match env.currentExe with
    | none => (false, files)
    | some currentExe => replaceBinary fails currentExe newBinary files

/-! ### What is kept -/

/-- An update that is not reported leaves the executable as it was. -/
def KeepsBinary (env : Environment) (fails : Failures) (files : Files Path Bytes) : Prop :=
  (checkAndUpdate env fails files).1 = false → ∀ exe, env.currentExe = some exe →
    (checkAndUpdate env fails files).2 exe = files exe

/-- The copy fails, or there is no executable to copy, and a backup is there that differs from the
executable. -/
def LeavesOther (fails : Failures) (exe : Path) (files : Files Path Bytes) : Prop :=
  match files exe with
  | none => (files exe.backup).isSome = true
  | some current => exe.backup ≠ exe ∧ ∃ leftover other, fails.copy = some leftover ∧
      leftover.after (files exe.backup) = some other ∧ other ≠ current

/-- The download is written, the renaming fails, and such a backup is put in its place. -/
structure RestoresOther (fails : Failures) (exe : Path) (files : Files Path Bytes) : Prop where
  isWritten : exe.tmp ≠ exe ∧ fails.write = none
  isExecutable : fails.setPermissions = false
  isNotRenamed : fails.rename = true
  isRolledBack : fails.rollback = false
  leavesOther : LeavesOther fails exe files

/-- Such a backup is what the copy leaves. -/
theorem leavesOther_iff {fails : Failures} {exe : Path} {files : Files Path Bytes} :
    LeavesOther fails exe files ↔ ∃ other,
      (copy exe exe exe.backup fails.copy files).2 exe.backup = some other ∧
        files exe ≠ some other := by
  unfold LeavesOther
  cases hexe : files exe with
  | none =>
    have hcopy : copy exe exe exe.backup fails.copy files = (false, files) := by
      unfold copy
      rw [hexe]
    rw [hcopy]
    simp [Option.isSome_iff_exists]
  | some current =>
    by_cases hbackup : exe.backup = exe
    · rw [hbackup, copy_running, hexe]
      simp
    · dsimp only
      rw [copy_target hexe hbackup, and_iff_right hbackup]
      cases fails.copy with
      | none => simp
      | some leftover => simp [eq_comm]

/-- The executable behind a renaming that failed. -/
theorem restoreBackup_exe (fails : Failures) {exe : Path} (hne : exe.tmp ≠ exe)
    (files : Files Path Bytes) :
    restoreBackup fails exe files exe =
      if fails.rollback = true then files exe else (files exe.backup).or (files exe) := by
  unfold restoreBackup
  rw [remove_of_ne (Ne.symm hne)]
  cases hbackup : files exe.backup with
  | none => simp
  | some content =>
    rw [Option.isSome_some, if_pos rfl]
    cases fails.rollback with
    | true => rw [rename_true, if_pos rfl]
    | false =>
      rw [rename_false (Option.isSome_iff_exists.mpr ⟨content, hbackup⟩)]
      exact (Function.update_self _ _ _).trans hbackup

/-- The download is written and executable, and the renaming fails. -/
def FailsToRename (fails : Failures) (exe : Path) : Prop :=
  (exe.tmp ≠ exe ∧ fails.write = none) ∧ fails.setPermissions = false ∧ fails.rename = true

/-- What a replacement can come to: it is reported or keeps the executable, or the renaming fails
and the backup is put in its place if that can be done. -/
theorem replaceBinary_cases (fails : Failures) (exe : Path) (newBinary : Bytes)
    (files : Files Path Bytes) :
    (¬ FailsToRename fails exe ∧ ((replaceBinary fails exe newBinary files).1 = true ∨
      (replaceBinary fails exe newBinary files).2 exe = files exe)) ∨
    (FailsToRename fails exe ∧ (replaceBinary fails exe newBinary files).1 = false ∧
      (replaceBinary fails exe newBinary files).2 exe =
        if fails.rollback = true then files exe
        else ((copy exe exe exe.backup fails.copy files).2 exe.backup).or (files exe)) := by
  have hexe : (copy exe exe exe.backup fails.copy files).2 exe = files exe := copy_running
  unfold replaceBinary FailsToRename
  dsimp only
  generalize (copy exe exe exe.backup fails.copy files).2 = copied at hexe ⊢
  have hkept : (write exe exe.tmp newBinary fails.write copied).2 exe = files exe :=
    write_running.trans hexe
  have hbackup : (write exe exe.tmp newBinary fails.write copied).2 exe.backup =
      copied exe.backup := write_of_ne exe.backup_ne_tmp
  have hwrite : (write exe exe.tmp newBinary fails.write copied).1 = true ↔
      exe.tmp ≠ exe ∧ fails.write = none := write_fst
  have htmp : (write exe exe.tmp newBinary fails.write copied).1 = true →
      (write exe exe.tmp newBinary fails.write copied).2 exe.tmp = some newBinary := write_target
  rw [← hwrite]
  generalize write exe exe.tmp newBinary fails.write copied = written at hkept hbackup hwrite htmp ⊢
  cases hwritten : written.1 with
  | false =>
    rw [if_pos rfl]
    exact Or.inl ⟨fun hmeets ↦ Bool.false_ne_true hmeets.1, Or.inr hkept⟩
  | true =>
    have hne := (hwrite.mp hwritten).1
    have hsource := Option.isSome_iff_exists.mpr ⟨newBinary, htmp hwritten⟩
    rw [if_neg (Ne.symm Bool.false_ne_true)]
    cases fails.setPermissions with
    | true =>
      rw [if_pos rfl, remove_of_ne (Ne.symm hne)]
      exact Or.inl ⟨fun hmeets ↦ Bool.false_ne_true hmeets.2.1.symm, Or.inr hkept⟩
    | false =>
      rw [if_neg Bool.false_ne_true]
      cases fails.rename with
      | false =>
        rw [rename_false hsource, if_pos rfl]
        exact Or.inl ⟨fun hmeets ↦ Bool.false_ne_true hmeets.2.2, Or.inl rfl⟩
      | true =>
        rw [rename_true, if_neg Bool.false_ne_true]
        dsimp only
        rw [restoreBackup_exe fails hne, hbackup, hkept]
        exact Or.inr ⟨⟨rfl, rfl, rfl⟩, rfl, rfl⟩

/-- Behind a renaming that failed, all that is left to fail is the renaming of the backup. -/
theorem restoresOther_iff {fails : Failures} {exe : Path} {files : Files Path Bytes} :
    RestoresOther fails exe files ↔
      FailsToRename fails exe ∧ fails.rollback = false ∧ LeavesOther fails exe files := by
  constructor
  · rintro ⟨hwritten, hpermissions, hrename, hrollback, hother⟩
    exact ⟨⟨hwritten, hpermissions, hrename⟩, hrollback, hother⟩
  · rintro ⟨⟨hwritten, hpermissions, hrename⟩, hrollback, hother⟩
    exact ⟨hwritten, hpermissions, hrename, hrollback, hother⟩

/-- What a replacement that is not reported keeps. -/
theorem replaceBinary_kept_iff (fails : Failures) (exe : Path) (newBinary : Bytes)
    (files : Files Path Bytes) :
    ((replaceBinary fails exe newBinary files).1 = false →
        (replaceBinary fails exe newBinary files).2 exe = files exe) ↔
      ¬ RestoresOther fails exe files := by
  rw [restoresOther_iff, leavesOther_iff]
  rcases replaceBinary_cases fails exe newBinary files with
    ⟨hnot, hkept⟩ | ⟨hmeets, hfailed, hexe⟩
  · refine iff_of_true (fun hfailed ↦ hkept.resolve_left ?_) fun hother ↦ hnot hother.1
    rw [hfailed]
    exact Bool.false_ne_true
  · rw [forall_prop_of_true hfailed, hexe, and_iff_right hmeets]
    cases fails.rollback <;>
      cases (copy exe exe exe.backup fails.copy files).2 exe.backup <;> simp [eq_comm]

/-- The executable is kept exactly when no other backup is put in its place. -/
theorem keepsBinary_iff (env : Environment) (fails : Failures) (files : Files Path Bytes) :
    KeepsBinary env fails files ↔
      ∀ newBinary exe, download env = some newBinary → env.currentExe = some exe →
        ¬ RestoresOther fails exe files := by
  unfold KeepsBinary checkAndUpdate
  cases download env with
  | none => exact iff_of_true (fun _ _ _ ↦ rfl) nofun
  | some newBinary =>
    cases env.currentExe with
    | none => exact iff_of_true nofun nofun
    | some exe =>
      have hkept := replaceBinary_kept_iff fails exe newBinary files
      constructor
      · rintro hkeeps _ _ ⟨⟩ ⟨⟩
        exact hkept.mp fun hfailed ↦ hkeeps hfailed exe rfl
      · rintro hnot hfailed _ ⟨⟩
        exact hkept.mpr (hnot newBinary exe rfl rfl) hfailed

/-! ### A backup cut short -/

/-- A controller that offers version 0.2.0, a binary of two bytes. -/
def offeringEnvironment : Environment where
  config := ⟨"http://c:8080".toList, "reg".toList⟩
  get _ authorization := some
    { status := 200
      json := authorization.map fun _ ↦ ⟨"0.2.0".toList, none⟩
      bytes := some [9, 9] }
  currentExe := some ⟨"/opt".toList, "livecdn-agent".toList⟩

/-- The copy breaks off behind the first byte, and the renaming fails. -/
def brokenCopy : Failures := ⟨some (.partly [1]), none, false, true, false, false⟩

/-- The executable, alone. -/
def installed : Files Path Bytes := fun path ↦
  if path = ⟨"/opt".toList, "livecdn-agent".toList⟩ then some [1, 2, 3] else none

/-- No update is reported, and of the executable only the first byte is left. -/
theorem keepsBinary_counterexample :
    (checkAndUpdate offeringEnvironment brokenCopy installed).1 = false ∧
      (checkAndUpdate offeringEnvironment brokenCopy installed).2
        ⟨"/opt".toList, "livecdn-agent".toList⟩ = some [1] ∧
      ¬ KeepsBinary offeringEnvironment brokenCopy installed := by
  have hfailed : (checkAndUpdate offeringEnvironment brokenCopy installed).1 = false := by
    decide +kernel
  have hcut : (checkAndUpdate offeringEnvironment brokenCopy installed).2
      ⟨"/opt".toList, "livecdn-agent".toList⟩ = some [1] := by decide +kernel
  refine ⟨hfailed, hcut, fun hkeeps ↦ ?_⟩
  have hsame := hkeeps hfailed ⟨"/opt".toList, "livecdn-agent".toList⟩ rfl
  rw [hcut] at hsame
  exact absurd hsame (by decide +kernel)

end LiveCDN.Agent.SelfUpdate
