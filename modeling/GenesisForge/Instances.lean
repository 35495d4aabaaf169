/-!
# Preferred instances

Powers and the equality test of byte strings are those of the core library in all
modules alike, whatever other instances a module sees.
-/

attribute [default_instance 20000, instance (high)] instPowNat

attribute [instance (high)] ByteArray.instDecidableEq
