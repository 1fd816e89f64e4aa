/-
# Data types of claims

The configuration gives every data type a kind and parameters.  `validateDatatypeValue` is the check that
the value of a claim passes before a credential with it is offered: a string may have to match a pattern,
a number to lie between bounds, a date to be in one of the accepted formats, a picture to be a data URL
with an accepted media type.

The parsers for regular expressions, doubles and dates belong to the environment.
-/
import OneCore.Lib.Result
import OneCore.Model.Credential

namespace OneCore

inductive DateFormat where
  | date
  | datetime
deriving DecidableEq

inductive Datatype where
  | string (pattern : Option Str)
  | number (min max : Option UInt64)
  | date (formats : List DateFormat) (preferredFormat : Option DateFormat) (min max : Option Str)
  | picture (accept : Option (List Str)) (fileSize : Option Nat) (encodeAsMdlPortrait : Bool)
  | swiyuPicture (accept : Option (List Str)) (fileSize : Option Nat)
  | object
  | array
  | boolean

def Datatype.display : Datatype → String
  | .string _ => "STRING"
  | .number _ _ => "NUMBER"
  | .date _ _ _ _ => "DATE"
  | .picture _ _ _ => "PICTURE"
  | .swiyuPicture _ _ => "SWIYU_PICTURE"
  | .object => "OBJECT"
  | .array => "ARRAY"
  | .boolean => "BOOLEAN"

abbrev DatatypeConfig := String → Option Datatype

inductive DatatypeValidationError where
  | stringInvalidPattern (msg : String)
  | stringNotMatchingPattern (value pattern : Str)
  | numberParseFailure (msg : String)
  | numberTooSmall (number min : UInt64)
  | numberTooBig (number max : UInt64)
  | booleanParseFailure
  | dateParseFailure (msg : String)
  | missingFormats
  | preferredFormatNotAllowed
  | dateTooEarly (value min : Str)
  | dateTooLate (value max : Str)
  | fileParseIncorrectSchema (scheme : Str)
  | fileParseMissingDataPart
  | fileUnsupportedMediaType (mediaType : Str)
  | fileParseNoBase64
  | fileTooLong
  | objectValueShouldNotBeSpecifiedInRequest
  | arrayValueShouldNotBeSpecifiedInRequest
deriving DecidableEq

inductive ConfigValidationError where
  | entryNotFound (name : String)
  | datatypeValidation (error : DatatypeValidationError)
deriving DecidableEq

/-- The parsers behind the checks. -/
structure DatatypeEnvironment where
  /-- The texts that match a regular expression. -/
  regex : Str → Except String (Str → Bool)
  /-- The bits of a double. -/
  parseF64 : Str → Except String UInt64
  ltF64 : UInt64 → UInt64 → Bool
  /-- The number of a day, from that of the epoch. -/
  parseDate : Str → Except String Int
  parseDateTime : Str → Except String Timestamp
  today : Int
  now : Timestamp

variable (env : DatatypeEnvironment) (value : Str)

def validateString (pattern : Option Str) : Except DatatypeValidationError Unit :=
  match pattern with
  | none => .ok ()
  | some pattern => do
    let isMatch ← (env.regex pattern).mapError .stringInvalidPattern
    ensure (isMatch value) (.stringNotMatchingPattern value pattern)

def validateBoolean : Except DatatypeValidationError Unit :=
  ensure (value = "true".toList ∨ value = "false".toList) .booleanParseFailure

def validateNumber (min max : Option UInt64) :
    Except DatatypeValidationError Unit := do
  let number ← (env.parseF64 value).mapError .numberParseFailure
  match min with
  | some min => ensure (¬env.ltF64 number min) (.numberTooSmall number min)
  | none => pure ()
  match max with
  | some max => ensure (¬env.ltF64 max number) (.numberTooBig number max)
  | none => pure ()

def parseMinMaxDate : Except DatatypeValidationError Int :=
  if value = "NOW".toList then .ok env.today
  else (env.parseDate value).mapError .dateParseFailure

/-- The bound of a date and time may be a date, which is its midnight. -/
def parseMinMaxDatetime : Except DatatypeValidationError Timestamp :=
  if value = "NOW".toList then .ok env.now
  else
    match env.parseDate value with
    | .ok day => .ok (day * seconds 86400)
    | .error _ => (env.parseDateTime value).mapError .dateParseFailure

def validateDateFormat (parse : Str → Except String Int)
    (parseMinMax : Str → Except DatatypeValidationError Int) (value : Str) (min max : Option Str) :
    Except DatatypeValidationError Unit := do
  let date ← (parse value).mapError .dateParseFailure
  match min with
  | some min => do
    let minDate ← parseMinMax min
    ensure (minDate ≤ date) (.dateTooEarly value min)
  | none => pure ()
  match max with
  | some max => do
    let maxDate ← parseMinMax max
    ensure (date ≤ maxDate) (.dateTooLate value max)
  | none => pure ()

def validateDateFormatDate (min max : Option Str) : Except DatatypeValidationError Unit :=
  validateDateFormat env.parseDate (parseMinMaxDate env) value min max

def validateDateFormatDatetime (min max : Option Str) : Except DatatypeValidationError Unit :=
  validateDateFormat env.parseDateTime (parseMinMaxDatetime env) value min max

def validateDateParams (formats : List DateFormat) (preferredFormat : Option DateFormat) :
    Except DatatypeValidationError Unit := do
  ensure (formats ≠ []) .missingFormats
  ensure (∀ f ∈ preferredFormat, f ∈ formats) .preferredFormatNotAllowed

/-- A date is valid if it is in one of the formats; otherwise the last format tells why not. -/
def validateDate (formats : List DateFormat) (preferredFormat : Option DateFormat)
    (min max : Option Str) : Except DatatypeValidationError Unit := do
  validateDateParams formats preferredFormat
  let results := formats.map fun
    | .date => validateDateFormatDate env value min max
    | .datetime => validateDateFormatDatetime env value min max
  if results.any Except.isOk then .ok () else results.getLast?.getD (.ok ())

def trimStartData : Str → Str
  | 'd' :: 'a' :: 't' :: 'a' :: ':' :: rest => trimStartData rest
  | s => s

def base64ByteLength (data : Str) : Nat :=
  let padding := if ['=', '='] <:+ data then 2 else if ['='] <:+ data then 1 else 0
  (String.ofList data).utf8ByteSize * 3 / 4 - padding

def validatePicture (maxSize : Option Nat) (accept : Option (List Str)) :
    Except DatatypeValidationError Unit := do
  let parts := value.splitOn ','
  let mediaPart := parts.headD []
  ensure ("data:".toList <+: mediaPart)
    (.fileParseIncorrectSchema ((mediaPart.splitOn ':').headD []))
  let contentType := trimStartData mediaPart
  ensure ("base64".toList <:+: contentType) .fileParseNoBase64
  match accept with
  | some accept => do
    let mediaType := (contentType.splitOn ';').headD []
    ensure (mediaType ∈ accept) (.fileUnsupportedMediaType mediaType)
  | none => pure ()
  let dataPart ← okOr parts[1]? .fileParseMissingDataPart
  match maxSize with
  | some maxFileSize => ensure (base64ByteLength dataPart ≤ maxFileSize) .fileTooLong
  | none => pure ()

def validateDatatypeValue (datatype : String) (config : DatatypeConfig) :
    Except ConfigValidationError Unit := do
  let fields ← okOr (config datatype) (.entryNotFound datatype)
  (match fields with
  | .string pattern => validateString env value pattern
  | .number min max => validateNumber env value min max
  | .swiyuPicture accept fileSize => validatePicture value fileSize accept
  | .picture accept fileSize _ => validatePicture value fileSize accept
  | .object => .error .objectValueShouldNotBeSpecifiedInRequest
  | .array => .error .arrayValueShouldNotBeSpecifiedInRequest
  | .boolean => validateBoolean value
  | .date formats preferredFormat min max =>
    validateDate env value formats preferredFormat min max).mapError .datatypeValidation

end OneCore
