import BindOnce.Failure
import BindOnce.Setting

/-!
# What the person who ran the program reads

Each language has a message for every cause of failure, and a phrase that says on which line
something went wrong.  Every operator that a failure passes through wraps the message once: the
phrase for its line comes in front, and the periods that the message ends in, however many, give way
to one.  A failure that passed through no operator is reported by the bare message.
-/

set_option autoImplicit false
namespace BindOnce

namespace Lang

/-- The message for a cause, in Waray. -/
def warayText : Cause → String
  | .binaryOperands op _ _ =>
    match op with
    | .pipe | .map | .reduce | .filter => "Sayop nga pag-gamit."
    | .add => "Sayop nga pag-dugang."
    | .sub => "Dire pwede mag-iban dire numero."
    | .mul => "Sayop nga pag multiply."
    | .div => "Sayop nga pag divide."
    | .mod => "Sayop nga pag modulo."
    | .pow => "Sayop nga pag exponent."
    | .and => "Syntax error."
    | .eq | .notEq | .lt | .le | .gt | .ge | .or | .assign => "Sayop."
  | .unaryOperand _ _ => "Sayop."
  | .alreadyBound name => s!"Mayda na \"{name}\"."
  | .functionAlreadyDeclared name => s!"Mayda na hirimuon nga \"{name}\""
  | .undefinedCallee name => s!"Waray butang nga an ngaran \"{name}\""
  | .notCallable name => s!"Diri hirimuon it \"{name}\""
  | .unsupportedBinaryOperator _ | .unsupportedUnaryOperator _ => "Sayop nga operasyon."
  | .invalidAssignmentTarget => "Sayop nga pag-assign."
  | .emptyReduce => "Waray sulod an lista."
  | .invalidRepeatCount _ => "Sayop nga ihap."
  | .recursionLimit _ function _ => s!"Sobra na an pagtawag ha \"{function}\"."

/-- The message for a cause, in Tagalog. -/
def tagalogText : Cause → String
  | .binaryOperands op _ _ =>
    match op with
    | .pipe | .map | .reduce | .filter => "Maling paggamit."
    | .add => "Maling pagdagdag."
    | .sub => "Hindi puwedeng magbawas ng hindi numero."
    | .mul => "Maling pag-multiply."
    | .div => "Maling pag-divide."
    | .mod => "Maling pag-modulo."
    | .pow => "Maling pag-exponent."
    | .and => "Syntax error."
    | .eq | .notEq | .lt | .le | .gt | .ge | .or | .assign => "Mali."
  | .unaryOperand _ _ => "Mali."
  | .alreadyBound name => s!"Mayroon nang \"{name}\"."
  | .functionAlreadyDeclared name => s!"Mayroon nang function na \"{name}\""
  | .undefinedCallee name => s!"Walang bagay na may pangalang \"{name}\""
  | .notCallable name => s!"Hindi function ang \"{name}\""
  | .unsupportedBinaryOperator _ | .unsupportedUnaryOperator _ => "Maling operasyon."
  | .invalidAssignmentTarget => "Maling pag-assign."
  | .emptyReduce => "Walang laman ang listahan."
  | .invalidRepeatCount _ => "Maling bilang."
  | .recursionLimit _ function _ => s!"Sobrang lalim ng pagtawag sa \"{function}\"."

/-- The message for a cause, without lines. -/
def causeText : Lang → Cause → String
  | .waray => warayText
  | .tagalog => tagalogText

/-- The phrase that introduces what went wrong on a line. -/
def linePhrase : Lang → Line → String
  | .waray, line => s!"May sayop ka ha linya {line}: "
  | .tagalog, line => s!"May mali ka sa linya {line}: "

end Lang

/-- A message without the periods it ends in. -/
def trimPeriods (s : String) : String := (s.dropEndWhile '.').copy

namespace Lang

/-- A message as something that went wrong on a line. -/
def atLine (lang : Lang) (line : Line) (message : String) : String :=
  lang.linePhrase line ++ trimPeriods message ++ "."

/-- The message after it has passed through operators on these lines, the first line first. -/
def wrapped (lang : Lang) (lines : List Line) (message : String) : String :=
  lines.foldl (fun text line => lang.atLine line text) message

end Lang

/-- The report of a failure. -/
def Failure.report (e : Failure) (lang : Lang) : String :=
  lang.wrapped e.lines (lang.causeText e.cause)

end BindOnce
