import MonitorCoverage.Bytes

/-!
# The release of the program

Which build is running: its version, its commit and its date. What the build did not set can be
filled in from what is known of the sources.
-/

namespace MonitorCoverage

structure Release where
  version : Bytes := utf8 "dev"
  commit : Bytes := utf8 "unknown"
  date : Bytes := utf8 "unknown"
  deriving DecidableEq, Repr

/-- What is known of the sources of a build. -/
structure BuildInfo where
  version : Bytes
  settings : List (Bytes × Bytes)
  deriving DecidableEq, Repr

namespace Release

/-- Takes over one setting, where the release does not have it yet. -/
def applySetting (release : Release) (setting : Bytes × Bytes) : Release :=
  if setting.1 = utf8 "vcs.revision" ∧ release.commit = utf8 "unknown" then
    { release with commit := setting.2 }
  else if setting.1 = utf8 "vcs.time" ∧ release.date = utf8 "unknown" then
    { release with date := setting.2 }
  else release

/-- Takes over what the release does not have yet. A development version is no version. -/
def apply (release : Release) (info : BuildInfo) : Release :=
  let named :=
    if release.version = utf8 "dev" ∧ info.version ≠ [] ∧ info.version ≠ utf8 "(devel)" then
      { release with version := info.version }
    else release
  info.settings.foldl applySetting named

def banner (release : Release) : Bytes :=
  utf8 "lockcov " ++ release.version ++ utf8 " (commit: " ++ release.commit ++ utf8 ", built: "
    ++ release.date ++ utf8 ")"

end Release

end MonitorCoverage
