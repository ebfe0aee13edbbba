/-!
What can be wrong with an archive or with one of its entries.
-/

namespace ClassAtlas.Zip

inductive Error where
  | noDirectoryEnd
  | truncated
  | commentLength
  | directoryOffset
  | noDirectory
  | severalDisks
  /-- The record for large archives does not fit the one that points to it. -/
  | largeRecord
  | header
  | extraField
  | passwordRequired
  | method
  deriving Repr, DecidableEq

def Error.message : Error → String
  | .noDirectoryEnd => "invalid Zip archive: Could not find EOCD"
  | .truncated => "invalid Zip archive: Unexpected end of data"
  | .commentLength => "invalid Zip archive: EOCD comment exceeds file boundary"
  | .directoryOffset => "invalid Zip archive: Invalid CDFH offset in EOCD"
  | .noDirectory => "invalid Zip archive: No CDFH found"
  | .severalDisks => "unsupported Zip archive: Support for multi-disk files is not implemented"
  | .largeRecord => "invalid Zip archive: Could not find EOCD64"
  | .header => "invalid Zip archive: Invalid header"
  | .extraField => "invalid Zip archive: Invalid extra field"
  | .passwordRequired => "unsupported Zip archive: Password required to decrypt file"
  | .method => "unsupported Zip archive: Compression method not supported"

inductive ReadError where
  | checksum
  | corrupt
  | method
  deriving Repr, DecidableEq

def ReadError.message : ReadError → String
  | .checksum => "Invalid checksum"
  | .corrupt => "corrupt deflate stream"
  | .method => "unsupported compression method"

end ClassAtlas.Zip
