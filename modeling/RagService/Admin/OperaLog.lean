import RagService.Foundation.Dicts
import RagService.Foundation.Utf8
import RagService.Foundation.Writers

/-!
# The operation log

`OperaLogMiddleware.get_request_args`: what the log keeps of a request.
-/

namespace RagService
namespace OperaLog

/-!
# Requests

What the middleware sees of a request before it is routed, and the constants of `core/conf.py`.
-/

inductive FormValue where
  | text (s : Text)
  /-- An `UploadFile` -/
  | file (filename contentType : Option Text) (size : Option Nat)

structure Request where
  /-- `request.query_params`, in their order -/
  query : List (Text × Text)
  pathParams : Dict Text Text
  contentType : Option Text
  contentLength : Option Text
  body : Bytes

inductive LogError where
  /-- The `ValueError` of a content length that is no number -/
  | contentLength
  /-- The `JSONDecodeError` of a body -/
  | json
  /-- What the form parser raises -/
  | form

structure LogEnv where
  isPrintable : Char -> Bool
  /-- The texts of bytes in UTF-16 and UTF-32 -/
  wide : Bytes -> Option Text
  /-- `request.form()` of a content type and a body -/
  form : Option Text -> Bytes -> Except LogError (List (Text × FormValue))

/-- `OPERA_LOG_REDACT_KEYS` -/
def redactKeys : List Text :=
  ["password".toList, "old_password".toList, "new_password".toList, "confirm_password".toList]

/-- `OPERA_LOG_BODY_MAX_SIZE` -/
def bodyMaxSize : Nat :=
  10240

/-!
# JSON bodies

A body is decoded as `request.json()` decodes it: by its first bytes, then as JSON.
-/

inductive Encoding where
  | utf8
  /-- UTF-8 after a byte order mark -/
  | utf8Sig
  /-- UTF-16 or UTF-32 -/
  | wide

/-- `json.detect_encoding(body)` -/
def detectEncoding (body : Bytes) : Encoding :=
  if [0, 0, 0xfe, 0xff].isPrefixOf body || [0xff, 0xfe, 0, 0].isPrefixOf body ||
      [0xfe, 0xff].isPrefixOf body || [0xff, 0xfe].isPrefixOf body then .wide
  else if [0xef, 0xbb, 0xbf].isPrefixOf body then .utf8Sig
  else
    match body with
    | b₀ :: b₁ :: _ :: _ :: _ => if b₀ = 0 ∨ b₁ = 0 then .wide else .utf8
    | [b₀, b₁] => if b₀ = 0 ∨ b₁ = 0 then .wide else .utf8
    | _ => .utf8

/-- `request.json()` -/
def requestJson (env : LogEnv) (body : Bytes) : Option Json :=
  let text := match detectEncoding body with
    | .utf8 => Text.decodeStrict body
    | .utf8Sig => Text.decodeStrict (body.drop 3)
    | .wide => env.wide body
  text.bind Json.loads

/-!
# Arguments

The arguments of a request: of a body that is not read the size and the type, else its values
without the secrets, and a short note where their JSON text is too long.
-/

abbrev Args := Dict Text Json

def desensitization (args : Args) : Args :=
  args.map fun p => (p.1, if p.1 ∈ redactKeys then .str "[REDACTED]".toList else p.2)

def queryArgs (r : Request) (args : Args) : Args :=
  let queryParams := Dict.ofPairs (r.query.map fun p => (p.1, Json.str p.2))
  if queryParams.isEmpty then args
  else args.set "query_params".toList (.obj (desensitization queryParams))

def pathArgs (r : Request) (args : Args) : Args :=
  if r.pathParams.isEmpty then args
  else args.set "path_params".toList
    (.obj (desensitization (r.pathParams.map fun p => (p.1, Json.str p.2))))

/-- `content_types`; the types that are looked for are ASCII. -/
def contentTypes (r : Request) : List Text :=
  ((r.contentType.getD []).splitOn ';').map fun item => Text.lowerAscii (Text.strip item)

def isMultipart (r : Request) : Bool :=
  "multipart/form-data".toList ∈ contentTypes r

def isForm (r : Request) : Bool :=
  isMultipart r || "application/x-www-form-urlencoded".toList ∈ contentTypes r

def isJson (r : Request) : Bool :=
  "application/json".toList ∈ contentTypes r

/-- `get_content_length`, without or with its `ValueError` -/
def getContentLength (r : Request) : Except LogError (Option Int) :=
  match r.contentLength with
  | none | some [] => .ok none
  | some length =>
      match Double.intOfText length with
      | some n => .ok (some n)
      | none => .error .contentLength

/-- `build_truncated_body` with the largest size that is logged -/
def buildTruncatedBody (originalSize : Option Int) : Args :=
  [("_truncated".toList, .bool true),
    ("_original_size".toList, (originalSize.map Json.int).getD .null),
    ("_max_size".toList, .int bodyMaxSize),
    ("_message".toList, .str "请求体过大或大小未知，已跳过操作日志请求体记录".toList)]

def skippedSize (r : Request) : Option Int -> Option (Option Int)
  | some n => if (bodyMaxSize : Int) < n then some (some n) else none
  | none => if isMultipart r then some none else none

def bodyArgs (env : LogEnv) (r : Request) (args : Args) : Except LogError Args :=
  if r.body.isEmpty || isForm r then .ok args
  else if isJson r then
    match requestJson env r.body with
    | none => .error .json
    | some (.obj fields) => .ok (args.set "json".toList (.obj (desensitization fields)))
    | some v => .ok (args.set "data".toList (.str (v.asText env.isPrintable)))
  else .ok (args.set "data".toList (.str (Text.decodeIgnore r.body)))

def FormValue.serialized : FormValue -> Json
  | text s => .str s
  | file filename contentType size =>
      .obj [("filename".toList, (filename.map Json.str).getD .null),
        ("content_type".toList, (contentType.map Json.str).getD .null),
        ("size".toList, (size.map fun n => Json.int n).getD .null)]

def formArgs (env : LogEnv) (r : Request) (args : Args) : Except LogError Args :=
  if isForm r then do
    let form ← env.form r.contentType r.body
    let serializedForm := Dict.ofPairs (form.map fun p => (p.1, p.2.serialized))
    if serializedForm.isEmpty then .ok args
    else if isMultipart r then
      .ok (args.set "form-data".toList (.obj (desensitization serializedForm)))
    else .ok (args.set "x-www-form-urlencoded".toList (.obj (desensitization serializedForm)))
  else .ok args

/-- The text of a float in `json.dumps` -/
def floatText (literal : Text) : Text :=
  match Double.ofLiteral literal with
  | .nan => "NaN".toList
  | .infinite true => "-Infinity".toList
  | .infinite false => "Infinity".toList
  | .finite _ => Double.reprLiteral literal

/-- `json.dumps(args, ensure_ascii=False)` -/
def argsStyle : Json.Style :=
  { Json.dumpsStyle false with float := floatText }

/-- `len(args_str.encode('utf-8'))` -/
def argsSize (args : Args) : Nat :=
  (Text.encode (Json.write argsStyle (.obj args))).length

def truncate (args : Args) : Args :=
  if args.isEmpty then args
  else if bodyMaxSize < argsSize args then buildTruncatedBody (some (argsSize args))
  else args

/-- `args or None` -/
def orNone (args : Args) : Option Args :=
  if args.isEmpty then none else some args

def fullArgs (env : LogEnv) (r : Request) : Except LogError Args := do
  let args ← bodyArgs env r (pathArgs r (queryArgs r []))
  formArgs env r args

def getRequestArgs (env : LogEnv) (r : Request) : Except LogError (Option Args) := do
  let contentLength ← getContentLength r
  match skippedSize r contentLength with
  | some size =>
      return some ((pathArgs r (queryArgs r [])).set "body".toList (.obj (buildTruncatedBody size)))
  | none =>
      let args ← fullArgs env r
      return orNone (truncate args)

end OperaLog
end RagService
