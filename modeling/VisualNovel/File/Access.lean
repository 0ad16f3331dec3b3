namespace VisualNovel

inductive FileFault where
  | missing
  | notADirectory
  | isADirectory
  | nameTooLong
  | nameWithNul
  | notText
  | other (message : String)
  deriving DecidableEq

def FileFault.message : FileFault → String
  | missing => "No such file or directory (os error 2)"
  | notADirectory => "Not a directory (os error 20)"
  | isADirectory => "Is a directory (os error 21)"
  | nameTooLong => "File name too long (os error 36)"
  | nameWithNul => "file name contained an unexpected NUL byte"
  | notText => "stream did not contain valid UTF-8"
  | other message => message

structure FileSystem where
  isPresent : String → Bool
  read : String → Except FileFault String
  list : String → Except FileFault (List String)

end VisualNovel
