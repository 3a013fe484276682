import Cashew.Gateway.ContentRenderer

/-!
# Requests, responses and sessions of the gateway

The data types of `gateway/gateway_server.hpp`.
-/

namespace Cashew

open Cashew.Lib

/-- A string literal of the source, as bytes. -/
def lit (s : String) : Bytes := (Text.ofString s).bytes

/-- `HttpMethod`. -/
inductive HttpMethod where
  | get
  | post
  | put
  | delete
  | options
  | head
  deriving DecidableEq

/-- `HttpStatus`. -/
inductive HttpStatus where
  | ok
  | created
  | noContent
  | badRequest
  | unauthorized
  | forbidden
  | notFound
  | methodNotAllowed
  | conflict
  | internalError
  | notImplemented
  | serviceUnavailable
  deriving DecidableEq

/-- `HttpRequest`. -/
structure HttpRequest where
  method : HttpMethod
  path : Text
  headers : OrdMap Text Text := .empty
  queryParams : OrdMap Text Text := .empty
  body : Bytes := []
  clientIp : Text

/-- `HttpResponse`. -/
structure HttpResponse where
  status : HttpStatus := .ok
  headers : OrdMap Text Text :=
    (OrdMap.empty.insert (Text.ofString "Content-Type") (Text.ofString "application/json")).insert
      (Text.ofString "Server") (Text.ofString "Cashew-Gateway/1.0")
  body : Bytes := []

namespace HttpResponse

def setHeader (r : HttpResponse) (name : String) (value : Text) : HttpResponse :=
  { r with headers := r.headers.insert (Text.ofString name) value }

/-- `HttpResponse::set_binary_body`. -/
def setBinaryBody (r : HttpResponse) (data : Bytes) (mimeType : Text) : HttpResponse :=
  { r with body := data }.setHeader "Content-Type" mimeType

/-- `HttpResponse::set_json_body`. -/
def setJsonBody (r : HttpResponse) (json : Text) : HttpResponse :=
  r.setBinaryBody json.bytes (Text.ofString "application/json; charset=utf-8")

/-- `HttpResponse::set_html_body`. -/
def setHtmlBody (r : HttpResponse) (html : Text) : HttpResponse :=
  r.setBinaryBody html.bytes (Text.ofString "text/html; charset=utf-8")

/-- The response that only says what went wrong. -/
def failure (status : HttpStatus) (message : String) : HttpResponse :=
  { status := status : HttpResponse }.setJsonBody
    (Text.ofString ("\x7b\"error\": \"" ++ message ++ "\"\x7d"))

end HttpResponse

/-- `GatewaySession`. -/
structure GatewaySession where
  sessionId : Text
  userKey : Option PublicKey := none
  createdAt : TimePoint
  lastActivity : TimePoint
  isAnonymous : Bool
  canRead : Bool := true
  canPost : Bool := false
  canVote : Bool := false
  canHost : Bool := false

/-- `GatewayConfig`, the part that handling requests reads. -/
structure GatewayConfig where
  sessionTimeout : Int := 3600
  maxSessions : Nat := 10000
  maxRequestsPerMinute : Nat := 60
  maxRequestsPerHour : Nat := 1000
  enableCors : Bool := true
  corsOrigin : Text := Text.ofString "*"
  enableDirectoryListing : Bool := false

end Cashew
