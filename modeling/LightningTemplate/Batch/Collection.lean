import LightningTemplate.FileSystem

/-! Which component files the given paths stand for. -/
namespace LightningTemplate.Batch
open Text

def extension : Text := ".cmp".toList

/-- What lies below a directory under a name with the extension, directories too, in
the order of the paths. -/
def componentsBelow (fs : FileSystem) (p : Path) : List Path :=
  match fs.locate p with
  | .error _ => []
  | .ok place =>
    (((fs.below place).map (p.below ·.1)).filter (extension.isSuffixOf ·.name)).mergeSort Path.le

/-- A directory stands for what lies below it, another path for itself if it has the extension. -/
def candidates (fs : FileSystem) (p : Path) : List Path :=
  if fs.isDirectory p then componentsBelow fs p
  else if p.suffix = extension then [p]
  else []

/-- The files of all paths, each path at its first place. -/
def collect (fs : FileSystem) (paths : List Text) : List Path :=
  (paths.flatMap fun t => candidates fs (.ofText t)).eraseDups

end LightningTemplate.Batch
