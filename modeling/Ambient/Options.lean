namespace Ambient

structure Options where
  /-- How deep types and namespaces may nest. -/
  maxDepth : Option Nat := none
  /-- Whether declarations keep the comments that lead them. -/
  attachComments : Option Bool := none
deriving DecidableEq

namespace Options

def defaultMaxDepth : Nat := 200

def depthLimit (o : Options) : Nat := o.maxDepth.getD defaultMaxDepth

def keepsComments (o : Options) : Bool := o.attachComments.getD true

/-- Takes what is not set from `other`. -/
def mergedWith (o other : Options) : Options :=
  ⟨o.maxDepth <|> other.maxDepth, o.attachComments <|> other.attachComments⟩

end Options

end Ambient
