import Cashew.Gateway.Http
import Cashew.Lib.FileSystem
import Cashew.Lib.TextSearch

/-!
# Static files

`GatewayServer::handle_static_file` of `gateway/gateway_server.cpp`. The web root is what
`resolve_web_root` found: the canonical path of a directory. `locate` is the function up to
the place where the file is opened.

Where a function of `std::filesystem` throws there is nothing. The file system stays as it is
during a request, so that the size that is read is that of the data.
-/

namespace Cashew

open Cashew.Lib

/-- What `resolve_web_root` found. -/
structure WebRoot (fs : FileSystem) where
  path : List FileName
  isDirectory : fs.entry path = some .directory

namespace StaticFiles

/-- `to_lower_ascii`. -/
def toLowerAscii (value : Bytes) : Bytes :=
  value.map fun c => if 65 ≤ c && c ≤ 90 then c + 32 else c

/-- `mime_from_path`, from the extension. -/
def mimeFromExtension (extension : Bytes) : String :=
  let ext := toLowerAscii extension
  if ext = lit ".html" || ext = lit ".htm" then "text/html; charset=utf-8"
  else if ext = lit ".css" then "text/css; charset=utf-8"
  else if ext = lit ".js" then "application/javascript; charset=utf-8"
  else if ext = lit ".json" then "application/json; charset=utf-8"
  else if ext = lit ".txt" then "text/plain; charset=utf-8"
  else if ext = lit ".svg" then "image/svg+xml"
  else if ext = lit ".png" then "image/png"
  else if ext = lit ".jpg" || ext = lit ".jpeg" then "image/jpeg"
  else if ext = lit ".gif" then "image/gif"
  else if ext = lit ".webp" then "image/webp"
  else if ext = lit ".ico" then "image/x-icon"
  else if ext = lit ".wasm" then "application/wasm"
  else "application/octet-stream"

def indexHtml : FileName := lit "index.html"

/-- `relative`: the path without the prefix of the route and without slashes in front. -/
def relativePath (path : Text) : Bytes :=
  let relative := if (lit "/static/").isPrefixOf path.bytes then path.bytes.drop 8 else path.bytes
  let relative := if relative = [] || relative = lit "/" then indexHtml else relative
  relative.dropWhile (· = 47)

/-- The extensions that are not served. -/
def scriptExtensions : List Bytes := [lit ".pl", lit ".cgi", lit ".pm"]

/-- The page that lists a directory. -/
def listingPage (relative : Bytes) (names : List FileName) : Text :=
  ⟨lit "<!DOCTYPE html><html><head><meta charset=\"utf-8\"><title>Index of /static/" ++ relative ++
    lit "</title></head><body>" ++ lit "<h1>Index of /static/" ++ relative ++ lit "</h1><ul>" ++
    names.flatMap (fun name => lit "<li>" ++ name ++ lit "</li>") ++ lit "</ul></body></html>"⟩

/-- The checks of the resolved path's text. -/
def refusal (root : List FileName) (resolved : NormalPath) : Option HttpResponse :=
  let relativeToRoot := lexicallyRelative resolved.elements root
  if relativeToRoot = [] || (lit "..").isPrefixOf (pathText relativeToRoot) then
    some (.failure .forbidden "Path outside web root")
  else
    let relLower := toLowerAscii (pathText relativeToRoot)
    let extLower := toLowerAscii resolved.extension
    if (findFrom (lit "/cgi-bin/") relLower 0).isSome || extLower ∈ scriptExtensions then
      some (.failure .forbidden "Executable scripts are not served by static gateway")
    else none

section

variable (fs : FileSystem) (config : GatewayConfig) (listing : List FileName → List FileName)

/-- The last check before a file is opened. -/
def checkFile (resolved : NormalPath) : Option (Except HttpResponse NormalPath) := do
  if !(← fs.exists? resolved.elements) || !(← fs.isRegularFile resolved.elements) then
    return .error (.failure .notFound "File not found")
  else return .ok resolved

/-- From a resolved path to the one that is opened: itself, or the `index.html` in it. -/
def target (relative : Bytes) (resolved : NormalPath) :
    Option (Except HttpResponse NormalPath) := do
  if ← fs.isDirectory resolved.elements then
    if !config.enableDirectoryListing then
      let index : NormalPath := ⟨resolved.names ++ [indexHtml], false⟩
      if (← fs.exists? index.elements) && (← fs.isRegularFile index.elements) then
        checkFile fs index
      else return .error (.failure .notFound "Directory listing disabled")
    else
      return .error ({ : HttpResponse }.setHtmlBody (listingPage relative (listing resolved.names)))
  else checkFile fs resolved

/-- The path that is opened, or the answer without one. -/
def locate (root : WebRoot fs) (path : Text) : Option (Except HttpResponse NormalPath) :=
  let relative := relativePath path
  match fs.weaklyCanonical (root.path ++ elements relative) with
  | none => some (.error (.failure .notFound "File not found"))
  | some resolved =>
    match refusal root.path resolved with
    | some response => some (.error response)
    | none => target fs config listing relative resolved

/-- The data of the file under a path, and its real path. -/
def readFile (resolved : NormalPath) : Option (List FileName × Bytes) :=
  match fs.status resolved.elements with
  | .found real =>
    match fs.entry real with
    | some (.file (some data)) => some (real, data)
    | _ => none
  | _ => none

/-- `GatewayServer::handle_static_file`. -/
def handleStaticFile (root : Option (WebRoot fs)) (path : Text) : Option HttpResponse :=
  match root with
  | none => some (.failure .internalError "Invalid web root configuration")
  | some root =>
    match locate fs config listing root path with
    | none => none
    | some (.error response) => some response
    | some (.ok resolved) =>
      match readFile fs resolved with
      | none => some (.failure .internalError "Failed to open file")
      | some (_, data) =>
        some ((({ : HttpResponse }.setBinaryBody data
          (Text.ofString (mimeFromExtension resolved.extension))).setHeader "Content-Length"
            (Text.decimal data.length)).setHeader "Cache-Control"
              (Text.ofString "public, max-age=300"))

end

end StaticFiles

end Cashew
