import Adventure.Source

/-!
# Tokens

A program is read as a sequence of tokens. Each token has a kind. Reserved words, operators and
punctuation are told by their kind alone; identifiers, literals and characters that belong to no
token also carry a text.
-/

namespace Adventure

/-- What a token is: a reserved word, a symbol, a name or literal, a character that fits nowhere,
or the end of the source. -/
inductive Kind where
  | item | character | health | attack | defence | level | reqexp | exp | equipped | inventory
  | reward | desc | value | whileWord | ifWord | elseWord | function | returnWord
  | curlyOpen | curlyClose | roundOpen | roundClose | plus | minus | asterisk | slash | assign
  | increasesBy | multipliesBy | semicolon | dot | colon | comma | and | caret | lessThan
  | moreThan | lessOrEqual | moreOrEqual | equals | attackMove | questionMark
  | identifier | numberLiteral | stringLiteral | diceLiteral | unknown | endOfFile
  deriving DecidableEq, Repr

namespace Kind

/-- The kinds in the order of their codes: reserved words, symbols, and all else. -/
def all : List Kind :=
  [.item, .character, .health, .attack, .defence, .level, .reqexp, .exp, .equipped, .inventory,
   .reward, .desc, .value, .whileWord, .ifWord, .elseWord, .function, .returnWord, .curlyOpen,
   .curlyClose, .roundOpen, .roundClose, .plus, .minus, .asterisk, .slash, .assign, .increasesBy,
   .multipliesBy, .semicolon, .dot, .colon, .comma, .and, .caret, .lessThan, .moreThan,
   .lessOrEqual, .moreOrEqual, .equals, .attackMove, .questionMark, .identifier, .numberLiteral,
   .stringLiteral, .diceLiteral, .unknown, .endOfFile]

/-- The name of a kind in messages. -/
def name : Kind → String
  | .item => "ITEM"
  | .character => "CHARACTER"
  | .health => "HEALTH"
  | .attack => "ATTACK"
  | .defence => "DEFENCE"
  | .level => "LEVEL"
  | .reqexp => "REQEXP"
  | .exp => "EXP"
  | .equipped => "EQUIPPED"
  | .inventory => "INVENTORY"
  | .reward => "REWARD"
  | .desc => "DESC"
  | .value => "VALUE"
  | .whileWord => "WHILE"
  | .ifWord => "IF"
  | .elseWord => "ELSE"
  | .function => "FUNCTION"
  | .returnWord => "RETURN"
  | .curlyOpen => "CURLY_OPEN"
  | .curlyClose => "CURLY_CLOSE"
  | .roundOpen => "ROUND_OPEN"
  | .roundClose => "ROUND_CLOSE"
  | .plus => "PLUS"
  | .minus => "MINUS"
  | .asterisk => "ASTERISK"
  | .slash => "SLASH"
  | .assign => "ASSIGN"
  | .increasesBy => "INCREASES_BY"
  | .multipliesBy => "MULTIPLIES_BY"
  | .semicolon => "SEMICOLON"
  | .dot => "DOT"
  | .colon => "COLON"
  | .comma => "COMMA"
  | .and => "AND"
  | .caret => "CARET"
  | .lessThan => "LESS_THAN"
  | .moreThan => "MORE_THAN"
  | .lessOrEqual => "LESS_OR_EQUAL"
  | .moreOrEqual => "MORE_OR_EQUAL"
  | .equals => "EQUALS"
  | .attackMove => "ATTACK_MOVE"
  | .questionMark => "QUESTION_MARK"
  | .identifier => "IDENTIFIER"
  | .numberLiteral => "NUMBER_LITERAL"
  | .stringLiteral => "STRING_LITERAL"
  | .diceLiteral => "DICE_LITERAL"
  | .unknown => "UNKNOWN"
  | .endOfFile => "END_OF_FILE"

/-- The name of the kind with the given code; a code that no kind has is shown as a number. -/
def nameOfCode (code : Int) : String :=
  match if code < 0 then none else all[code.toNat]? with
  | some kind => kind.name
  | none => s!"Kind({code})"

/-- The reserved words. -/
def words : List (String × Kind) :=
  [("item", .item), ("character", .character), ("health", .health), ("attack", .attack),
   ("defence", .defence), ("level", .level), ("reqexp", .reqexp), ("exp", .exp),
   ("equipped", .equipped), ("inventory", .inventory), ("reward", .reward), ("desc", .desc),
   ("value", .value), ("while", .whileWord), ("if", .ifWord), ("else", .elseWord),
   ("function", .function), ("return", .returnWord)]

/-- The kind of a reserved word. -/
def ofWord? (word : String) : Option Kind :=
  words.lookup word

/-- The symbols of two characters. -/
def pairs : List (Char × Char × Kind) :=
  [('+', '=', .increasesBy), ('*', '=', .multipliesBy), ('<', '=', .lessOrEqual),
   ('>', '=', .moreOrEqual), ('=', '=', .equals), ('>', '>', .attackMove)]

/-- The symbols of one character. -/
def singles : List (Char × Kind) :=
  [('{', .curlyOpen), ('}', .curlyClose), ('(', .roundOpen), (')', .roundClose), ('+', .plus),
   ('-', .minus), ('*', .asterisk), ('/', .slash), ('=', .assign), (';', .semicolon),
   ('.', .dot), (':', .colon), (',', .comma), ('&', .and), ('^', .caret), ('<', .lessThan),
   ('>', .moreThan), ('?', .questionMark)]

/-- The kind of the symbol written `c` `d`. -/
def ofPair? (c d : Char) : Option Kind :=
  (pairs.find? fun (x, y, _) => x == c && y == d).map fun (_, _, kind) => kind

/-- The kind of the symbol written `c`. -/
def ofSingle? (c : Char) : Option Kind :=
  singles.lookup c

end Kind

/-- A token of a program. -/
structure Token where
  /-- what it is -/
  kind : Kind
  /-- its text, for names, literals and stray characters -/
  value : String
  /-- the place of its first character -/
  position : Position
  deriving DecidableEq, Repr

namespace Token

/-- A token as a listing of tokens shows it. -/
def describe (t : Token) : String :=
  s!"[Value: {t.value}\tType: {t.kind.name}]"

end Token

end Adventure
