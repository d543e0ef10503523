/-!
# Random tokens

A token is a run of ASCII letters and digits drawn from a random generator, one draw for each
character. The generator is passed in and handed back, so a token is a function of its seed.
-/

namespace IdMint.Text.Token

/-- The sixty-two characters of a token. -/
def alphabet : List Char := "ABCDEFGHIJKLMNOPQRSTUVWXYZabcdefghijklmnopqrstuvwxyz0123456789".toList

def letter (dice : StdGen) : Char × StdGen :=
  let (n, dice) := stdNext dice
  (alphabet.getD (n % alphabet.length) 'A', dice)

/-- A run of characters of the alphabet, of the length asked for. -/
def letters (dice : StdGen) : Nat → List Char × StdGen
  | 0 => ([], dice)
  | n + 1 =>
    let (c, dice) := letter dice
    let (rest, dice) := letters dice n
    (c :: rest, dice)

def draw (dice : StdGen) (length : Nat) : String × StdGen :=
  let (text, dice) := letters dice length
  (String.ofList text, dice)

end IdMint.Text.Token
