import UwbRanging.Telemetry.Line
import UwbRanging.Text.Blank

/-!
Decoding a line. The text it begins with selects its kind, and the kind its fields:

    TA, 0, 215                      link address
    TW, 206, 3, 171.25              range, parameter 3
    TW, 206, 3, 1712500, -12        range with carrier offset
    TW, 206, 171.25                 range without parameter
    TD, 69, 70, 1234, -35.5         distance difference
    ts, 4                           timeslot
    tschass, 1                      has joined the network
    dpnl 205 10 83                  neighbors
    tstx1, 206, 0:1234, 0:2345, …   six clock readings
    ;; EB_PERIOD = 400              setting of the firmware
    CSFDFF                          end of the experiment
-/

namespace UwbRanging.Telemetry

open UwbRanging.Telemetry.Parser

inductive LineKind where
  | address
  | twoWayRange
  | tdoa
  | rawExchange
  | associated
  | timeslot
  | neighborList
  | configItem
  | finished
  deriving DecidableEq, Repr

/-- The text that lines of a kind begin with. -/
def LineKind.mark : LineKind → String
  | address => "TA,"
  | twoWayRange => "TW,"
  | tdoa => "TD,"
  | rawExchange => "tstx1,"
  | associated => "tschass,"
  | timeslot => "ts,"
  | neighborList => "dpnl"
  | configItem => ";;"
  | finished => "CSFDFF"

def LineKind.all : List LineKind :=
  [.address, .twoWayRange, .tdoa, .rawExchange, .associated, .timeslot, .neighborList, .configItem, .finished]

/-- The text after `mark`, if it begins with it. -/
def afterMark? : List Char → List Char → Option (List Char)
  | [], s => some s
  | _ :: _, [] => none
  | m :: mark, c :: s => if m = c then afterMark? mark s else none

/-- The kind of a line, and the text after its mark. -/
def splitKind (line : List Char) : Option (LineKind × List Char) :=
  LineKind.all.findSome? fun kind => (afterMark? kind.mark.toList line).map (kind, ·)

/-- A comma, with blanks around it or not. -/
def separator : Parser Unit := do
  blanks
  character ','
  blanks

def firstWord : Parser UInt32 := do
  blanks
  word

def nextWord : Parser UInt32 := do
  separator
  word

def nextNumber : Parser Float := do
  separator
  number

def addressBody : Parser (TelemetryLine Float) := do
  let high ← firstWord
  return .address high (← nextWord)

/-- With a parameter and perhaps a carrier offset, or without both. -/
def twoWayRangeBody : Parser (TelemetryLine Float) :=
  (do
    let other ← firstWord
    let parameter ← nextWord
    let range ← nextNumber
    return .twoWayRange other parameter range (← optional do separator; integer))
  <|> do
    let other ← firstWord
    return .twoWayRange other 0 (← nextNumber) none

/-- With a parameter or without. -/
def tdoaBody : Parser (TelemetryLine Float) :=
  (do
    let anchor1 ← firstWord
    let anchor2 ← nextWord
    let parameter ← nextWord
    return .tdoa anchor1 anchor2 parameter (← nextNumber))
  <|> do
    let anchor1 ← firstWord
    let anchor2 ← nextWord
    return .tdoa anchor1 anchor2 0 (← nextNumber)

def timeslotBody : Parser (TelemetryLine Float) := do
  return .timeslot (← firstWord)

def associatedBody : Parser (TelemetryLine Float) := do
  blanks
  return .associated ((← oneOf ['0', '1']) = '1')

/-- Each neighbor after a comma or after blanks. -/
def neighborListBody : Parser (TelemetryLine Float) := do
  return .neighborList (← many1 do separator <|> someBlanks; word)

/-- A reading as its high and its low 32 bits. -/
def splitReading : Parser Nat := do
  let high ← word
  character ':'
  let low ← word
  return high.toNat * UInt32.size + low.toNat

/-- Six readings make an exchange if each of them fits the clock. -/
def exchangeOf? : List Nat → Option Exchange
  | [tA1, rB1, tB1, rA1, tA2, rB2] => (Exchange.ofRaw tA1 rB1 tB1 rA1 tA2 rB2).toOption
  | _ => none

def rawExchangeBody : Parser (TelemetryLine Float) :=
  filterMap
    (do
      let neighbor ← firstWord
      return (neighbor, ← times (do separator; splitReading) 6))
    fun (neighbor, readings) => (exchangeOf? readings).map (.rawExchange neighbor)

def isNameChar (c : Char) : Bool :=
  c.isAlphanum || c = '_'

/-- A name, an equals sign, and a value up to the end of the line. -/
def configItemBody : Parser (TelemetryLine Float) := do
  blanks
  let name ← takeWhile1 isNameChar
  blanks
  character '='
  blanks
  return .configItem (String.ofList name) (String.ofList (Text.trim (← restOfLine)))

def finishedBody : Parser (TelemetryLine Float) := do
  blanks
  return .finished

def body : LineKind → Parser (TelemetryLine Float)
  | .address => addressBody
  | .twoWayRange => twoWayRangeBody
  | .tdoa => tdoaBody
  | .rawExchange => rawExchangeBody
  | .associated => associatedBody
  | .timeslot => timeslotBody
  | .neighborList => neighborListBody
  | .configItem => configItemBody
  | .finished => finishedBody

/-- Decodes a line without the blanks at its ends. -/
def decodeTrimmed (line : List Char) : Except TelemetryError (TelemetryLine Float) :=
  match splitKind line with
  | none => .error (.unrecognized (String.ofList line))
  | some (kind, rest) =>
    match (body kind).complete rest with
    | .found decoded _ => .ok decoded
    | .missed fault => .error (.malformed (String.ofList line) fault)
    | .aborted fault => .error (.malformed (String.ofList line) fault)

/-- Decodes a line. Blanks at its ends do not count. -/
def decode (line : String) : Except TelemetryError (TelemetryLine Float) :=
  decodeTrimmed (Text.trim line.toList)

end UwbRanging.Telemetry
