import LiveCDN.Library.ByteText
import LiveCDN.Library.SlashPath

/-!
# The download of agent binaries

`controller/server.go`: `handleDownloadBinary` joins the directory of the binaries with a name from
the URL and answers with the file, after `validAgentBinaryName` has looked at the name. Of its four
tests the first, that the name is its own `filepath.Base`, follows from the others
(`validAgentBinaryName_iff`). Whatever the directory is, a download reaches exactly the files of the
accepted names that are entries of the cleaned directory itself
(`handleDownloadBinary_eq_file_iff`).

Scope. Names and paths are byte strings, and separators those of Unix. What `os.Stat` says of a path
is an input (`Stat`); what `c.File` makes of the file is left out.
-/

set_option autoImplicit false
set_option relaxedAutoImplicit false

namespace LiveCDN.Controller.BinaryDownload

open Library.ByteText Library.SlashPath

/-! ### The handler -/

/-- The marks of a path under Unix. -/
def unixMarks : Marks UInt8 := ⟨47, 46, by decide⟩

/-- What an accepted name starts with. -/
def agentPrefix : List UInt8 := asciiBytes "livecdn-agent-".toList

/-- What an accepted name ends with. -/
def muslSuffix : List UInt8 := asciiBytes "-unknown-linux-musl".toList

/-- `validAgentBinaryName`. -/
def validAgentBinaryName (filename : List UInt8) : Bool :=
  if filename ≠ base unixMarks filename then false
  else if !agentPrefix.isPrefixOf filename then false
  else if filename.any fun byte ↦ byte == 47 || byte == 92 then false
  else muslSuffix.isSuffixOf filename

/-- What `os.Stat` says of a path: the file is there, it is not, or it cannot be looked at. -/
inductive Stat
  | found
  | notExist
  | fails
  deriving DecidableEq, Repr

/-- The answer to a download: an error with its status, or the file at a path. -/
inductive Answer
  | badRequest
  | notFound
  | internalServerError
  | file (path : List UInt8)
  deriving DecidableEq, Repr

/-- What both handlers answer when they have a path. -/
def serve (stat : List UInt8 → Stat) (path : List UInt8) : Answer :=
  match stat path with
  | .found => .file path
  | .notExist => .notFound
  | .fails => .internalServerError

/-- `handleDownloadBinary`. -/
def handleDownloadBinary (binaryDir : List UInt8) (stat : List UInt8 → Stat)
    (filename : List UInt8) : Answer :=
  if !validAgentBinaryName filename then .badRequest
  else serve stat (join unixMarks binaryDir filename)

/-- `handleInstallScript`. -/
def handleInstallScript (installScriptPath : List UInt8) (stat : List UInt8 → Stat) : Answer :=
  let path := clean unixMarks installScriptPath
  if path = [46] ∨ path = [47] then .notFound else serve stat path

/-! ### The names that are accepted -/

variable {filename : List UInt8}

theorem any_separator_eq_false_iff :
    (filename.any fun byte ↦ byte == 47 || byte == 92) = false ↔
      47 ∉ filename ∧ 92 ∉ filename := by
  rw [List.any_eq_false]
  constructor
  · intro hnone
    exact ⟨fun hslash ↦ hnone 47 hslash rfl, fun hbackslash ↦ hnone 92 hbackslash rfl⟩
  · rintro ⟨hslash, hbackslash⟩ byte hbyte hmark
    rcases Bool.or_eq_true_iff.mp hmark with h | h
    · exact hslash (beq_iff_eq.mp h ▸ hbyte)
    · exact hbackslash (beq_iff_eq.mp h ▸ hbyte)

/-- A name with the prefix and without a slash is an entry of a directory. -/
theorem isName_of_start (hstart : agentPrefix <+: filename) (hslash : 47 ∉ filename) :
    IsName unixMarks filename := by
  have hlength : 14 ≤ filename.length := hstart.length_le
  have hlong : ∀ short : List UInt8, short.length < 14 → filename ≠ short := by
    rintro short hshort rfl
    exact absurd hlength hshort.not_ge
  exact ⟨hlong [] (by decide), hlong [46] (by decide), hlong [46, 46] (by decide), hslash⟩

/-- The names that are accepted. That the name is its own last name follows. -/
theorem validAgentBinaryName_iff :
    validAgentBinaryName filename = true ↔
      agentPrefix <+: filename ∧ muslSuffix <:+ filename ∧ 47 ∉ filename ∧ 92 ∉ filename := by
  constructor
  · intro hvalid
    rw [validAgentBinaryName] at hvalid
    split_ifs at hvalid with hbase hstart hmarks
    rw [Bool.not_eq_true] at hmarks
    rw [Bool.not_eq_true, Bool.not_eq_false'] at hstart
    exact ⟨List.isPrefixOf_iff_prefix.mp hstart, List.isSuffixOf_iff_suffix.mp hvalid,
      any_separator_eq_false_iff.mp hmarks⟩
  · rintro ⟨hstart, hsuffix, hmarks⟩
    have hname : IsName unixMarks filename := isName_of_start hstart hmarks.1
    have hbase : base unixMarks filename = filename :=
      base_eq_self hname.ne_nil hname.slash_notMem
    rw [validAgentBinaryName, hbase, if_neg (not_not.mpr rfl),
      List.isPrefixOf_iff_prefix.mpr hstart, any_separator_eq_false_iff.mpr hmarks]
    exact List.isSuffixOf_iff_suffix.mpr hsuffix

-- The name that the agent's updater asks for by default.
example :
    validAgentBinaryName (asciiBytes "livecdn-agent-x86_64-unknown-linux-musl".toList) = true := by
  decide

/-! ### The files that are served -/

theorem serve_eq_file_iff {stat : List UInt8 → Stat} {found path : List UInt8} :
    serve stat found = .file path ↔ stat path = .found ∧ path = found := by
  rw [serve]
  cases hstat : stat found with
  | found =>
    constructor
    · intro hfile
      rw [← Answer.file.inj hfile]
      exact ⟨hstat, rfl⟩
    · rintro ⟨-, rfl⟩
      rfl
  | notExist =>
    refine iff_of_false Answer.noConfusion ?_
    rintro ⟨hfound, rfl⟩
    exact Stat.noConfusion (hstat.symm.trans hfound)
  | fails =>
    refine iff_of_false Answer.noConfusion ?_
    rintro ⟨hfound, rfl⟩
    exact Stat.noConfusion (hstat.symm.trans hfound)

/-- The install script is served from the cleaned path, unless that is a root or the working
directory. -/
theorem handleInstallScript_eq_file_iff (installScriptPath : List UInt8)
    (stat : List UInt8 → Stat) (path : List UInt8) :
    handleInstallScript installScriptPath stat = .file path ↔
      (path ≠ [46] ∧ path ≠ [47]) ∧ stat path = .found ∧
        path = clean unixMarks installScriptPath := by
  rw [handleInstallScript]
  split_ifs with hnone
  · refine iff_of_false not_false ?_
    rintro ⟨hpath, -, rfl⟩
    exact hnone.elim hpath.1 hpath.2
  · rw [serve_eq_file_iff]
    refine (and_iff_right_of_imp ?_).symm
    rintro ⟨-, rfl⟩
    exact not_or.mp hnone

/-- A download is answered with a file exactly when the name is accepted and the file is there, and
the file is the entry of that name directly in the cleaned directory. -/
theorem handleDownloadBinary_eq_file_iff (binaryDir : List UInt8) (stat : List UInt8 → Stat)
    (filename path : List UInt8) :
    handleDownloadBinary binaryDir stat filename = .file path ↔
      (agentPrefix <+: filename ∧ muslSuffix <:+ filename ∧ 47 ∉ filename ∧ 92 ∉ filename) ∧
        stat path = .found ∧ path = entry unixMarks (clean unixMarks binaryDir) filename := by
  rw [← validAgentBinaryName_iff, handleDownloadBinary]
  by_cases hvalid : validAgentBinaryName filename = true
  · have haccepted := validAgentBinaryName_iff.mp hvalid
    have hjoin : join unixMarks binaryDir filename =
        entry unixMarks (clean unixMarks binaryDir) filename :=
      join_eq_entry binaryDir (isName_of_start haccepted.1 haccepted.2.2.1)
    rw [hvalid, Bool.not_true, if_neg Bool.false_ne_true, serve_eq_file_iff, hjoin,
      and_iff_right rfl]
  · rw [Bool.eq_false_of_not_eq_true hvalid, Bool.not_false, if_pos rfl]
    exact iff_of_false Answer.noConfusion fun hserved ↦ Bool.false_ne_true hserved.1

end LiveCDN.Controller.BinaryDownload
