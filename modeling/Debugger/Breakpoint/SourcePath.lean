import Debugger.Settings.Basic
import Debugger.TypeName

/-!
Matching source paths. People name files by whole paths, the target often by the file name alone.
Segments are separated by either slash.
-/

namespace Debugger.SourcePath

def isSeparator (c : Char) : Bool :=
  c = '/' || c = '\\'

/-- The path with forward slashes. -/
def normalize (path : String) : List Char :=
  path.toList.map fun c => if c = '\\' then '/' else c

def fileNameOf (cs : List Char) : List Char :=
  TypeName.lastSegment isSeparator cs

/-- The last segment of a path. -/
def fileName (path : String) : String :=
  String.ofList (fileNameOf path.toList)

/-- Whether `suffix` ends `path` at the boundary of a segment. -/
def isPathSuffix (path suffix : List Char) : Bool :=
  let start := path.take (path.length - suffix.length)
  suffix.isSuffixOf path &&
    (start.isEmpty || start.getLast? = some '/' || suffix.head? = some '/')

/-- Whether a path as requested names the file that the target reports. -/
def sourceMatches (mode : SourceMatch) (requested reported : String) : Bool :=
  let requested := normalize requested
  let reported := normalize reported
  if requested = reported then true
  else match mode with
    | .exact => false
    | .tolerant => isPathSuffix requested reported || isPathSuffix reported requested ||
        fileNameOf requested = fileNameOf reported

end Debugger.SourcePath
