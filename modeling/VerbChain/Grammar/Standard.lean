namespace VerbChain

/-!
# The grammar of programs

The grammar that programs follow, in the notation that grammar-constrained
tools take: rules in lower case, terminals in upper case, and directives behind
a percent sign.
-/

/-- The grammar of chained-call programs. -/
def Grammar.standard : String := r#"
start: call_chain

call_chain: call (DOT call)*
call: IDENTIFIER "(" args? ")"
args: arg (COMMA arg)*
arg: IDENTIFIER "=" value
    | value

value: NUMBER
     | STRING
     | BOOL
     | IDENTIFIER
     | function_ref

function_ref: "@" IDENTIFIER

DOT: "."
COMMA: ","
NUMBER: /-?\d+(\.\d+)?/
STRING: /"([^"\\]|\\.)*"|'([^'\\]|\\.)*'/
IDENTIFIER: /[a-zA-Z_][a-zA-Z0-9_]*/
BOOL: "true" | "false"

%import common.WS
%ignore WS
"#

end VerbChain
