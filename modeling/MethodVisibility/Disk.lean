/-
  Listings of one directory.

  A listing holds files, empty directories and links, each at a relative path. A directory
  exists also if a path runs through it. `Disk.mount` is the file system in which the listed
  directory is the working directory, at a given place, with nothing else but the directories
  above it.
-/
import MethodVisibility.FileSystem

namespace MethodVisibility

/-- A file that may be read. -/
def Inode.file (octets : List UInt8) : Inode :=
  .entry (.file octets true)

/-- A directory of the usual size that may be read and looked into. -/
def Inode.directory : Inode :=
  .entry (.directory 4096 true true)

/-- What a directory holds, by the parts that lead to it from there. -/
abbrev Disk := List (List String × Inode)

namespace Disk

/-- What a place below the listed directory is. -/
def inode? (disk : Disk) (place : List String) : Option Inode :=
  if place = [] then some .directory
  else
    match disk.lookup place with
    | some inode => some inode
    | none => if disk.any fun row => place.isPrefixOf row.1 then some .directory else none

/-- The file system that has the listed directory at a place and works there. -/
def mount (disk : Disk) (workPlace : List String) : FileSystem where
  inode? place :=
    match workPlace.isPrefixOf? place with
    | some below => disk.inode? below
    | none => if place.isPrefixOf workPlace then some .directory else none
  workPlace

end Disk

/-- A listing alone stands for a system that works in the listed directory. -/
instance : Coe Disk FileSystem where
  coe disk := disk.mount ["tmp", "work"]

end MethodVisibility
