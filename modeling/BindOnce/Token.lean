/-!
# Tokens

A program arrives as a syntax tree, so of its tokens only the operators are left: a kind and the
line where it stood.  All kinds of the language are listed, not only those that are operators,
because a tree may carry any kind in an operator's place and the evaluator then has to name it in
its complaint.
-/

set_option autoImplicit false
namespace BindOnce

/-- A source line, counted from one.  Lines are reported and never computed with. -/
abbrev Line := Nat

/-- The kinds of token of the language. -/
inductive TokenKind where
  | leftParen | rightParen | leftBrace | rightBrace
  | comma | dot | semicolon | colon | pound
  | minus | plus | star | starStar | caret | slash | modulo
  | equal | bang | bangEqual | equalEqual | less | lessEqual | greater | greaterEqual
  | pipe
  | stringLiteral | numberLiteral | identifier | nilLiteral | trueLiteral | falseLiteral
  | notKeyword | andKeyword | orKeyword
  | mapKeyword | reduceKeyword | filterKeyword
  | printKeyword | ifKeyword | elseKeyword | functionKeyword | returnKeyword | endKeyword
  | endOfFile
  deriving DecidableEq, Repr, Inhabited

/-- How the token is spelled in messages. -/
def TokenKind.lexeme : TokenKind → String
  | .leftParen => "("
  | .rightParen => ")"
  | .leftBrace => "\x7b"
  | .rightBrace => "\x7d"
  | .comma => ","
  | .dot => "."
  | .semicolon => ";"
  | .colon => ":"
  | .pound => "#"
  | .minus => "-"
  | .plus => "+"
  | .star => "*"
  | .starStar => "**"
  | .caret => "^"
  | .slash => "/"
  | .modulo => "%"
  | .equal => "="
  | .bang => "!"
  | .bangEqual => "!="
  | .equalEqual => "=="
  | .less => "<"
  | .lessEqual => "<="
  | .greater => ">"
  | .greaterEqual => ">="
  | .pipe => "|>"
  | .stringLiteral => "<string>"
  | .numberLiteral => "<number>"
  | .identifier => "<identifier>"
  | .nilLiteral => "nil"
  | .trueLiteral => "true"
  | .falseLiteral => "false"
  | .notKeyword => "not"
  | .andKeyword => "and"
  | .orKeyword => "or"
  | .mapKeyword => "map"
  | .reduceKeyword => "reduce"
  | .filterKeyword => "filter"
  | .printKeyword => "print"
  | .ifKeyword => "if"
  | .elseKeyword => "else"
  | .functionKeyword => "fn"
  | .returnKeyword => "return"
  | .endKeyword => "end"
  | .endOfFile => "<eof>"

/-- An operator as it stands in a syntax tree. -/
structure Token where
  kind : TokenKind
  line : Line
  deriving DecidableEq, Repr, Inhabited

end BindOnce
