import PluralRule.Fault

/-!
Scanners: a source together with how far it has been scanned. A scanner can be
run again after an obstacle and goes on behind it; a run that reaches the end
of the source adds a token for the end every time.
-/

namespace PluralRule

structure Scanner where
  source : String
  limits : Limits
  position : Nat
  tokens : List Token
  deriving DecidableEq, Repr

namespace Scanner

def start (limits : Limits) (source : String) : Scanner := ⟨source, limits, 0, []⟩

def run (scanner : Scanner) : Except Fault (List Token) × Scanner :=
  match scanner.limits.check .length scanner.source.length with
  | .error breach => (.error (.limit breach), scanner)
  | .ok () =>
      let scan := Token.scan scanner.position (scanner.source.toList.drop scanner.position)
      let tokens := scanner.tokens ++ scan.tokens
      match scan.obstacle with
      | some (position, obstacle) =>
          (.error (.lexical position obstacle), { scanner with position := scan.stop, tokens })
      | none =>
          let finished := tokens ++ [Token.finish scan.stop]
          (.ok finished, { scanner with position := scan.stop, tokens := finished })

def answers : Nat → Scanner → List (Except Fault (List Token))
  | 0, _ => []
  | count + 1, scanner => scanner.run.1 :: answers count scanner.run.2

end Scanner

def Token.ofSource (limits : Limits) (source : String) : Except Fault (List Token) :=
  (Scanner.start limits source).run.1

end PluralRule
